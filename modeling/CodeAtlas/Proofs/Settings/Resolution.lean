import CodeAtlas.Settings.Basic

/-!
# Which source a setting is taken from

Checks that are combined pass together exactly if each of them passes (`seq_eq_passed_iff`), so the
settings that sources give have, member by member, passed a check of their own. A program is given none
of its settings by a caller: a setting is the text that the environment has for its name, the text that
the file assigns to it if the environment has none, and its default if neither has one. Main statements:
`host_of_passed` and `port_of_passed`.
-/

namespace CodeAtlas

namespace Schema

variable {α β : Type}

namespace Checked

/-- The value of a check that passes. -/
def value? : Checked α → Option α
  | passed a => some a
  | failed _ => none

theorem map_eq_passed_iff {f : α → β} {x : Checked α} {b : β} :
    f <$> x = passed b ↔ ∃ a, x = passed a ∧ f a = b := by
  cases x <;> simp [Functor.map, map]

/-- Two checks pass together exactly if both do. -/
theorem seq_eq_passed_iff {f : Checked (α → β)} {x : Checked α} {b : β} :
    f <*> x = passed b ↔ ∃ g, f = passed g ∧ ∃ a, x = passed a ∧ g a = b := by
  cases f <;> cases x <;> simp [Seq.seq, seq]

theorem under_eq_passed_iff {s : Step} {x : Checked α} {a : α} :
    x.under s = passed a ↔ x = passed a := by
  cases x <;> simp [under]

end Checked

open Checked

/-- A member that is there is checked, and the default stands for one that is not. -/
theorem member_eq_passed_iff {name : String} {d a : α} {c : Checker α} {ms : Members Json} :
    member [name] (some d) c ms = passed a ↔
      match ms.get? (Text.ofString name) with
      | some v => c v = passed a
      | none => d = a := by
  cases h : ms.get? (Text.ofString name) with
  | some v => simp [member, h, under_eq_passed_iff]
  | none => simp [member, h]

end Schema

namespace Settings

open Schema Checked

namespace Sources

/-- What stands among the values of some settings under the name of one. -/
theorem get?_values (s : Sources) (names : List String) (name : String) :
    (s.values names).get? (Text.ofString name) =
      if name ∈ names then s.value? (Text.ofString name) else Option.none := by
  induction names with
  | nil => rfl
  | cons n ns ih =>
    rw [values] at ih ⊢
    cases hv : s.value? (Text.ofString n) with
    | none =>
      rw [List.filterMap_cons_none (by simp [hv]), ih]
      by_cases hn : name = n
      · subst hn
        simp [hv]
      · simp [hn]
    | some v =>
      rw [List.filterMap_cons_some (b := (Text.ofString n, v)) (by simp [hv]), Members.get?, ih]
      by_cases hn : name = n
      · subst hn
        simp [hv]
      · simp [hn, Text.ofString_inj, Ne.symm hn]

/-- The text that the environment has for a setting. -/
def inEnvironment (s : Sources) (name : String) : Option Text :=
  lastNamed? (Text.ofString name) s.environment

/-- The text that the file assigns to a setting. -/
def inFile (s : Sources) (name : String) : Option Text :=
  (lastNamed? (Text.ofString name) s.file).join

/-- Without a caller, a setting is taken from the environment before the file. -/
theorem value?_of_given_eq_nil {s : Sources} (h : s.given = []) (name : String) :
    s.value? (Text.ofString name) = ((s.inEnvironment name).or (s.inFile name)).map .text := by
  rw [value?, h, inEnvironment, inFile]
  cases lastNamed? (Text.ofString name) s.environment with
  | some t => rfl
  | none =>
    cases lastNamed? (Text.ofString name) s.file with
    | none => rfl
    | some v => cases v <;> rfl

/-- The host: what the environment has, else what the file assigns, else the default. -/
def host (s : Sources) : Text :=
  ((s.inEnvironment "host").or (s.inFile "host")).getD (Text.ofString "127.0.0.1")

/-- The port: what the text in the environment stands for, else what the text in the file stands for, else
the default. A text that stands for no integer gives no port. -/
def port? (s : Sources) : Option Int :=
  match (s.inEnvironment "port").or (s.inFile "port") with
  | some t => (integerOfText t).value?
  | .none => some 3001

end Sources

/-- A program is given no settings by a caller. -/
theorem given_of_sourcesOf {environment : Members Text} {file : Option (List UInt8)} {s : Sources}
    (h : sourcesOf environment file = .ok s) : s.given = [] := by
  cases file with
  | none =>
    cases h
    rfl
  | some octets =>
    change (Utf8.decodeStrict octets).map _ = _ at h
    cases hdecode : Utf8.decodeStrict octets with
    | error m =>
      rw [hdecode] at h
      cases h
    | ok t =>
      rw [hdecode] at h
      cases h
      rfl

section

variable {s : Sources} {settings : Settings}

/-- The host and the port of settings that have passed, as members that have. -/
theorem members_of_passed (h : ofSources s = .passed settings) :
    member ["host"] (some (Text.ofString "127.0.0.1")) text (s.values names) =
        .passed settings.host ∧
      member ["port"] (some 3001) integer (s.values names) = .passed settings.port := by
  obtain ⟨_, uptoHost, port, hport, rfl⟩ := seq_eq_passed_iff.1 h
  obtain ⟨_, uptoOrigins, host, hhost, rfl⟩ := seq_eq_passed_iff.1 uptoHost
  obtain ⟨_, uptoKey, origins, -, rfl⟩ := seq_eq_passed_iff.1 uptoOrigins
  obtain ⟨_, uptoBytes, apiKey, -, rfl⟩ := seq_eq_passed_iff.1 uptoKey
  obtain ⟨_, uptoRoom, maxBytes, -, rfl⟩ := seq_eq_passed_iff.1 uptoBytes
  obtain ⟨_, uptoCapacity, room, -, rfl⟩ := seq_eq_passed_iff.1 uptoRoom
  obtain ⟨_, uptoFolder, capacity, -, rfl⟩ := seq_eq_passed_iff.1 uptoCapacity
  obtain ⟨_, uptoDebug, logFolder, -, rfl⟩ := seq_eq_passed_iff.1 uptoFolder
  obtain ⟨_, uptoLevel, debug, -, rfl⟩ := seq_eq_passed_iff.1 uptoDebug
  obtain ⟨level, -, rfl⟩ := map_eq_passed_iff.1 uptoLevel
  exact ⟨hhost, hport⟩

/-- The host of settings that have passed. -/
theorem host_of_passed (hgiven : s.given = []) (h : ofSources s = .passed settings) :
    settings.host = s.host := by
  have hmember := member_eq_passed_iff.1 (members_of_passed h).1
  rw [Sources.get?_values, if_pos (by decide), Sources.value?_of_given_eq_nil hgiven] at hmember
  rw [Sources.host]
  cases htext : (s.inEnvironment "host").or (s.inFile "host") with
  | none =>
    rw [htext] at hmember
    exact hmember.symm
  | some t =>
    rw [htext] at hmember
    cases hmember
    rfl

/-- The port of settings that have passed. -/
theorem port_of_passed (hgiven : s.given = []) (h : ofSources s = .passed settings) :
    s.port? = some settings.port := by
  have hmember := member_eq_passed_iff.1 (members_of_passed h).2
  rw [Sources.get?_values, if_pos (by decide), Sources.value?_of_given_eq_nil hgiven] at hmember
  rw [Sources.port?]
  cases htext : (s.inEnvironment "port").or (s.inFile "port") with
  | none =>
    rw [htext] at hmember
    exact congrArg some hmember
  | some t =>
    rw [htext] at hmember
    have hread : integerOfText t = .passed settings.port := hmember
    simp only [hread, value?]

end

end Settings

end CodeAtlas
