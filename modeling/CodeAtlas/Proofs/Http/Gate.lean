import CodeAtlas.Http.Service

/-!
# Calls with and without the key

A service with a key routes the calls that bring it and refuses the others, as long as the keys can be
compared. They cannot if one of the two is not in ASCII; the service then breaks down, also for a call
that brings its key. A call that does not pass changes nothing and shows nothing, so a sequence of calls
can be thinned out to those that pass (`handleAll_filter_passes`). Main statement:
`handle_of_guarded`.
-/

namespace CodeAtlas.Http

open Json

/-- Whether a call passes a service with a key. -/
def passes (key : Text) (c : Call) : Bool := admission key c = .passed

/-- Where a key is asked for, it is compared with the one that a call brings, if that is possible. -/
theorem admission_of_guarded {key : Text} {c : Call} (hkey : key ≠ []) (hpath : isOpen c.path = false) :
    admission key c =
      if isAscii (keyOf c) ∧ isAscii key then
        if keyOf c = key then .passed else .refused
      else .broken := by
  have hasked : ¬(isOpen c.path || key.isEmpty) = true := by simp [hpath, hkey]
  rw [admission, if_neg hasked]
  cases isAscii (keyOf c) <;> cases isAscii key <;> simp

namespace App

variable {s : Surroundings} {a : App} {c : Call}

/-! ### One call -/

/-- The service asks a call for its key: the call is routed if it brings the key, and else it is refused
and changes nothing. -/
def AsksForKey (s : Surroundings) (a : App) (c : Call) : Prop :=
  (keyOf c = a.settings.apiKey →
    a.handle s c = (dress a.origins c (route s a c).1, (route s a c).2)) ∧
  (keyOf c ≠ a.settings.apiKey →
    (a.handle s c).1.status = 401 ∧
    (a.handle s c).1.content = .json (record [("error", str "unauthorized"),
      ("message", str "Invalid or missing API key")]) ∧
    (a.handle s c).2 = a)

/-- A call that passes is routed. -/
theorem handle_of_passed (hcors : preflight? a.origins c = none)
    (h : admission a.settings.apiKey c = .passed) :
    a.handle s c = (dress a.origins c (route s a c).1, (route s a c).2) := by
  simp only [handle, hcors, h]

/-- A call whose key cannot be compared breaks the service down, and changes nothing. -/
theorem handle_of_broken (hcors : preflight? a.origins c = none)
    (h : admission a.settings.apiKey c = .broken) : a.handle s c = (.breakdown, a) := by
  simp only [handle, hcors, h]

/-- A call is asked for its key if both keys are in ASCII; otherwise the service breaks down and nothing
changes, whatever the keys are. -/
theorem handle_of_guarded (s : Surroundings) (hkey : a.settings.apiKey ≠ [])
    (hpath : isOpen c.path = false) (hcors : preflight? a.origins c = none) :
    if isAscii (keyOf c) ∧ isAscii a.settings.apiKey then AsksForKey s a c
    else a.handle s c = (.breakdown, a) := by
  have hadmission := admission_of_guarded hkey hpath
  split
  next hascii =>
    rw [if_pos hascii] at hadmission
    refine ⟨fun heq ↦ ?_, fun hne ↦ ?_⟩
    · exact handle_of_passed hcors (hadmission.trans (if_pos heq))
    · have hrefused := hadmission.trans (if_neg hne)
      have hreply : (a.handle s c).1 = dress a.origins c unauthorized := by
        simp only [handle, hcors, hrefused]
      exact ⟨congrArg Reply.status hreply, congrArg Reply.content hreply,
        handle_of_refused hrefused⟩
  next hascii => exact handle_of_broken hcors (hadmission.trans (if_neg hascii))

/-- How many inventories the cache holds if nothing is set. -/
def defaultCapacity : Nat := 50

theorem defaultCapacity_pos : 0 < defaultCapacity := by decide

/-- A service with a key and the default settings otherwise. -/
def withKey (key : Text) : App :=
  start
    { level := .info
      debug := false
      logFolder := Path.ofText (Text.ofString "logs")
      cacheCapacity := defaultCapacity
      cacheCapacity_pos := defaultCapacity_pos
      room := 50
      maxBytes := 10485760
      apiKey := key
      origins := Text.ofString "http://localhost:5173"
      host := Text.ofString "127.0.0.1"
      port := 3001 }
    [Text.ofString "http://localhost:5173"]

/-- A call that clears the cache, with the given keys. -/
def clearing (keys : List Text) : Call where
  verb := Text.ofString "POST"
  target := Text.ofString "/api/cache/clear"
  headers := keys.map (Text.ofString "X-API-Key", ·)
  body := []

theorem preflight?_clearing (origins keys : List Text) :
    preflight? origins (clearing keys) = none := by
  have hverb : Text.ofString "POST" ≠ Text.ofString "OPTIONS" := by decide
  exact preflight?_of_verb hverb

/-- A service with a key in ASCII clears its cache for those who bring the key, and for nobody else. -/
theorem handle_clearing :
    let s : Surroundings := ⟨⟨Parser.missing [], none, none⟩, true, [], []⟩
    let key := Text.ofString "s3cret"
    let a := withKey key
    a.settings.apiKey ≠ [] ∧
      (∀ keys ∈ [[key], []],
        isOpen (clearing keys).path = false ∧ preflight? a.origins (clearing keys) = none) ∧
      (a.handle s (clearing [key])).1.status = 200 ∧
      (a.handle s (clearing [])).1.status = 401 := by
  intro s key a
  have hkey : a.settings.apiKey ≠ [] := by decide
  have hpath : ∀ keys ∈ [[key], []], isOpen (clearing keys).path = false := by decide +kernel
  have hright := handle_of_guarded s hkey (hpath [key] (by simp)) (preflight?_clearing a.origins [key])
  have hwrong := handle_of_guarded s hkey (hpath [] (by simp)) (preflight?_clearing a.origins [])
  rw [if_pos (by decide +kernel)] at hright hwrong
  refine ⟨hkey, fun keys hmem ↦ ⟨hpath keys hmem, preflight?_clearing _ keys⟩, ?_, ?_⟩
  · rw [hright.1 (by decide +kernel)]
    decide +kernel
  · exact (hwrong.2 (by decide +kernel)).1

/-- A service with a key that is not in ASCII asks no call for it: the one that brings the key is not
routed, and the one that brings none is not refused. -/
theorem handle_clearing_accented :
    let s : Surroundings := ⟨⟨Parser.missing [], none, none⟩, true, [], []⟩
    let key := Text.ofString "clé"
    let a := withKey key
    ∀ keys ∈ [[key], []],
      a.settings.apiKey ≠ [] ∧ isOpen (clearing keys).path = false ∧
        preflight? a.origins (clearing keys) = none ∧
        (a.handle s (clearing keys)).1.status = 500 ∧ ¬AsksForKey s a (clearing keys) := by
  intro s key a keys hmem
  have hpath : isOpen (clearing keys).path = false := by
    revert keys
    decide +kernel
  have hbroken : admission a.settings.apiKey (clearing keys) = .broken := by
    revert keys
    decide +kernel
  have hreply := handle_of_broken (s := s) (preflight?_clearing a.origins keys) hbroken
  have hstatus : (a.handle s (clearing keys)).1.status = 500 := by rw [hreply]; rfl
  refine ⟨by decide, hpath, preflight?_clearing a.origins keys, hstatus, fun hasks ↦ ?_⟩
  by_cases heq : keyOf (clearing keys) = key
  · have hrouted : (a.handle s (clearing keys)).1.status = (route s a (clearing keys)).1.status :=
      congrArg (·.1.status) (hasks.1 heq)
    have hcleared : ∀ keys ∈ [[key], []], (route s a (clearing keys)).1.status = 200 := by
      decide +kernel
    rw [hstatus, hcleared keys hmem] at hrouted
    exact absurd hrouted (by decide)
  · rw [(hasks.2 heq).1] at hstatus
    exact absurd hstatus (by decide)

/-! ### Sequences of calls -/

/-- A call that does not pass changes nothing. -/
theorem handle_of_not_passes (h : passes a.settings.apiKey c = false) : (a.handle s c).2 = a := by
  unfold handle
  split
  next => rfl
  next =>
    split
    next => rfl
    next => rfl
    next hpassed => simp [passes, hpassed] at h

/-- Calls that do not pass can be left out: what the others are replied and what they leave behind stays
the same. -/
theorem handleAll_filter_passes (a : App) (calls : List (Surroundings × Call)) :
    let passing := calls.filter fun x ↦ passes a.settings.apiKey x.2
    passing.zip (a.handleAll passing).1 =
        (calls.zip (a.handleAll calls).1).filter (fun x ↦ passes a.settings.apiKey x.1.2) ∧
      (a.handleAll passing).2 = (a.handleAll calls).2 := by
  induction calls generalizing a with
  | nil => exact ⟨rfl, rfl⟩
  | cons x rest ih =>
    obtain ⟨s, c⟩ := x
    cases hc : passes a.settings.apiKey c with
    | true =>
      have hrest := ih (a.handle s c).2
      rw [settings_handle] at hrest
      simp only [List.filter_cons, hc, handleAll, List.zip_cons_cons, if_true]
      exact ⟨congrArg (_ :: ·) hrest.1, hrest.2⟩
    | false =>
      have hrest := ih a
      simp only [List.filter_cons, hc, handleAll, List.zip_cons_cons, handle_of_not_passes hc]
      exact hrest

end App

end CodeAtlas.Http
