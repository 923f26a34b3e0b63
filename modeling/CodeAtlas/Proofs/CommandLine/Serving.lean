import CodeAtlas.CommandLine.Run
import CodeAtlas.Proofs.Settings.Resolution

/-!
# Where the program serves

Whatever host and port are given in words of the form `--host=...` and `--port=...`, they are read as they
stand, the empty host and the port zero too (`plan_serving`). The address that the program serves at takes
what is given before the environment, the environment before the file and the file before the default;
but an empty host and the port zero count as not given. Main statement: `run_of_plan_serve`.
-/

namespace CodeAtlas.CommandLine

/-! ### Words that give a value -/

section

variable {κ : Type} {t : Table κ} {name : Text}

/-- The word that gives an option a value. -/
def giving (name value : Text) : Text := name ++ equals :: value

/-- A name and its value are told apart. -/
theorem splitEquals_giving (h : equals ∉ name) (value : Text) :
    Table.splitEquals (giving name value) = (name, some value) := by
  have hne : ∀ c ∈ name, decide (c ≠ equals) = true := by
    intro c hc
    simpa using fun heq : c = equals ↦ h (heq ▸ hc)
  rw [Table.splitEquals, giving, List.takeWhile_append_of_pos hne, List.dropWhile_append_of_pos hne]
  simp

/-- No option has a name with an equals sign in it. -/
def Table.Plain (t : Table κ) : Prop := ∀ n ∈ t.named, equals ∉ n.1

theorem find?_giving (ht : t.Plain) (name value : Text) : t.find? (giving name value) = none := by
  rw [Table.find?, Option.map_eq_none_iff, List.find?_eq_none]
  intro n hn hname
  have heq : n.1 = giving name value := by simpa using hname
  apply ht n hn
  simp [heq, giving]

theorem fullName?_giving (ht : t.Plain) (hplain : equals ∉ name) (value : Text) :
    t.fullName? (giving name value) = (t.find? name).map fun s ↦ ⟨s, name, .equal value⟩ := by
  rw [Table.fullName?, find?_giving ht, splitEquals_giving hplain]

/-- A long option that is given a value is found by its name. -/
theorem classify_giving {s : Switch κ} (c : CodePoint) (rest : Text) (ht : t.Plain)
    (hplain : equals ∉ dash :: dash :: c :: rest) (hs : t.find? (dash :: dash :: c :: rest) = some s)
    (value : Text) :
    t.classify (giving (dash :: dash :: c :: rest) value) =
      .ok (.option ⟨s, dash :: dash :: c :: rest, .equal value⟩) := by
  rw [Table.classify, if_neg (by simp [giving]), if_neg (by simp [giving]),
    fullName?_giving ht hplain, hs]
  rfl

/-- A word that no name in a table begins with is no misuse and no mark. -/
theorem classify_giving_unknown (c : CodePoint) (rest : Text) (ht : t.Plain)
    (hplain : equals ∉ dash :: dash :: c :: rest) (hs : t.find? (dash :: dash :: c :: rest) = none)
    (hnone : ∀ n ∈ t.named, (dash :: dash :: c :: rest).isPrefixOf n.1 = false) (value : Text) :
    ∃ k : Word κ, t.classify (giving (dash :: dash :: c :: rest) value) = .ok k ∧ k.isMark = false := by
  have hcandidates : t.candidates (giving (dash :: dash :: c :: rest) value) = [] := by
    have hsplit := splitEquals_giving hplain value
    rw [giving, List.cons_append, List.cons_append] at hsplit ⊢
    simp only [Table.candidates, hsplit, if_pos]
    refine List.filterMap_eq_nil_iff.2 fun n hn ↦ ?_
    simp [hnone n hn]
  rw [Table.classify, if_neg (by simp [giving]), if_neg (by simp [giving]),
    fullName?_giving ht hplain, hs, hcandidates]
  dsimp only [Option.map_none]
  split
  · exact ⟨_, rfl, rfl⟩
  · exact ⟨_, rfl, rfl⟩

theorem map_fst_classifyAll {ws : List Text} {tokens : List (Text × Word κ)}
    (h : t.classifyAll ws = .ok tokens) : tokens.map (·.1) = ws := by
  induction ws generalizing tokens with
  | nil =>
    cases h
    rfl
  | cons w ws ih =>
    rw [Table.classifyAll] at h
    split at h
    · cases h
    · cases h
      simp [Function.comp_def]
    · cases hrest : t.classifyAll ws with
      | error m =>
        rw [hrest] at h
        cases h
      | ok rest =>
        rw [hrest] at h
        cases h
        rw [List.map_cons, ih hrest]

theorem classifyAll_cons {w : Text} {k : Word κ} (h : t.classify w = .ok k) (hk : k.isMark = false)
    (ws : List Text) : t.classifyAll (w :: ws) = (t.classifyAll ws).map ((w, k) :: ·) := by
  rw [Table.classifyAll, h]
  cases k with
  | mark => cases hk
  | operand | option | unknown => rfl

/-- Words that are no misuse each are none together. -/
theorem exists_classifyAll {ws : List Text}
    (h : ∀ w ∈ ws, ∃ k : Word κ, t.classify w = .ok k ∧ k.isMark = false) :
    ∃ tokens, t.classifyAll ws = .ok tokens := by
  induction ws with
  | nil => exact ⟨[], rfl⟩
  | cons w ws ih =>
    obtain ⟨⟨k, hw, hk⟩, hws⟩ := List.forall_mem_cons.1 h
    obtain ⟨tokens, htokens⟩ := ih hws
    exact ⟨_, by rw [classifyAll_cons hw hk, htokens]; rfl⟩

theorem scan_nil (room : Room) : scan t room [] = [] := by
  simp [scan, takeOperand]

/-- An operand with room behind it takes all words that follow. -/
theorem events_rest {w : Text} {ws : List Text} (hw : t.classify w = .ok .operand)
    (hws : ∀ w ∈ ws, ∃ k : Word κ, t.classify w = .ok k ∧ k.isMark = false) :
    events t .rest (w :: ws) = [.operand (w :: ws)] := by
  obtain ⟨tokens, htokens⟩ := exists_classifyAll hws
  have hall : t.classifyAll (w :: ws) = .ok ((w, .operand) :: tokens) := by
    rw [classifyAll_cons hw rfl, htokens]
    rfl
  have htake : takeOperand .rest ((w, .operand) :: tokens) = some (w :: ws, []) := by
    rw [← map_fst_classifyAll hall]
    rfl
  rw [events, hall]
  dsimp only
  rw [scan]
  split
  next words rest h =>
    cases htake.symm.trans h
    rw [scan_nil]
  next h => cases htake.symm.trans h

/-- An option that takes a value and is given one in its own word takes effect, and no word more is
needed. -/
theorem scan_given {s : Switch κ} (hs : s.takesValue = true) (room : Room) (word name value : Text)
    (rest : List (Text × Word κ)) :
    scan t room ((word, .option ⟨s, name, .equal value⟩) :: rest) =
      .option s.key (some value) :: scan t room rest := by
  rw [scan]
  split
  next h => simp [takeOperand, Word.isMark] at h
  next => simp [Use.events, Switch.equalTo, hs]

end

/-! ### The command that serves -/

/-- The words behind the name of the command that serves. -/
def flags (host port : Option Text) : List Text :=
  (host.map (giving (Text.ofString "--host"))).toList ++
    (port.map (giving (Text.ofString "--port"))).toList

theorem classify_host (value : Text) :
    serveTable.classify (giving (Text.ofString "--host") value) =
      .ok (.option ⟨switch ["--host"] .host true, Text.ofString "--host", .equal value⟩) :=
  classify_giving (CodePoint.ofChar 'h') (Text.ofString "ost")
    (by unfold Table.Plain; decide) (by decide) rfl value

theorem classify_port (value : Text) :
    serveTable.classify (giving (Text.ofString "--port") value) =
      .ok (.option ⟨switch portNames .port true, Text.ofString "--port", .equal value⟩) :=
  classify_giving (CodePoint.ofChar 'p') (Text.ofString "ort")
    (by unfold Table.Plain; decide) (by decide) rfl value

theorem events_flags (host port : Option Text) :
    events serveTable .none (flags host port) =
      (host.map fun h ↦ .option .host (some h)).toList ++
        (port.map fun p ↦ .option .port (some p)).toList := by
  cases host <;> cases port <;>
    simp [flags, events, Table.classifyAll, classify_host, classify_port, scan_given, scan_nil, switch,
      Except.map]

/-- The host and the port are read as they stand. -/
theorem planServe_flags (host : Option Text) {digits : Option Text} {port : Option Int}
    (hport : digits.map Text.integer? = port.map some) :
    planServe (flags host digits) = .ok (.serve host port, []) := by
  rw [planServe, events_flags]
  cases digits with
  | none =>
    obtain rfl : port = none := by simpa using hport.symm
    cases host <;> rfl
  | some ds =>
    obtain ⟨n, rfl, hn⟩ : ∃ n, port = some n ∧ ds.integer? = some n := by
      cases port with
      | none => cases hport
      | some n => exact ⟨n, rfl, by simpa using hport⟩
    cases host <;> simp [ServeDraft.step, ServeDraft.start, hn, bind, Except.bind, pure, Except.pure]

/-- The words of a command line that serves. -/
def serving (host port : Option Text) : List Text := Text.ofString "serve" :: flags host port

theorem exists_classify_host (value : Text) :
    ∃ k, programTable.classify (giving (Text.ofString "--host") value) = .ok k ∧ k.isMark = false :=
  classify_giving_unknown (CodePoint.ofChar 'h') (Text.ofString "ost")
    (by unfold Table.Plain; decide) (by decide) rfl (by decide) value

theorem exists_classify_port (value : Text) :
    ∃ k, programTable.classify (giving (Text.ofString "--port") value) = .ok k ∧ k.isMark = false :=
  classify_giving_unknown (CodePoint.ofChar 'p') (Text.ofString "ort")
    (by unfold Table.Plain; decide) (by decide) rfl (by decide) value

/-- To the program the words of a command are its own, whatever values they give. -/
theorem events_serving (host port : Option Text) :
    events programTable .rest (serving host port) = [.operand (serving host port)] := by
  refine events_rest rfl fun w hw ↦ ?_
  rcases List.mem_append.1 hw with hw | hw
  · obtain ⟨value, -, rfl⟩ := Option.map_eq_some_iff.1 (Option.mem_toList.1 hw)
    exact exists_classify_host value
  · obtain ⟨value, -, rfl⟩ := Option.map_eq_some_iff.1 (Option.mem_toList.1 hw)
    exact exists_classify_port value

/-- Every host and every port that is written as an integer can be given. -/
theorem plan_serving (host : Option Text) {digits : Option Text} {port : Option Int}
    (hport : digits.map Text.integer? = port.map some) :
    plan (serving host digits) = .run (.serve host port) := by
  have hcommand : commands.find? (fun c ↦ Text.ofString c.1 = Text.ofString "serve") =
      some ("serve", planServe) := rfl
  rw [plan, events_serving]
  simp only [serving, List.foldlM_cons, List.foldlM_nil, ProgramDraft.step, hcommand,
    planServe_flags host hport]
  rfl

/-! ### The address -/

/-- A run that serves at an address. -/
def Report.serving (a : Address) : Report := ⟨0, [], [], some a⟩

/-- The settings of a run are those of its sources, none of which is a caller. -/
theorem Surroundings.exists_sources {s : Surroundings} {settings : Settings}
    (h : s.settings = .ok settings) :
    ∃ sources, Settings.sourcesOf s.environment s.assignments = .ok sources ∧
      Settings.ofSources sources = .passed settings := by
  rw [Surroundings.settings] at h
  split at h
  next => cases h
  next sources hsources =>
    split at h
    next passed hpassed =>
      cases h
      exact ⟨sources, hsources, hpassed⟩
    next => cases h

/-- Each part of the address that a program serves at comes from the first source that has it. Whatever
words give a host, a port, both or neither, and whatever the environment and the file of assignments hold,
the program serves exactly if the settings pass. It serves at the host that is given, or at the host of
the settings if none is given or the one given is empty; and at the port that is given, or at the port of
the settings if none is given or the one given is zero. The settings take the environment before the file
and the file before the default. -/
theorem run_of_plan_serve {s : Surroundings} {words : List Text} {host : Option Text}
    {port : Option Int} (hplan : plan words = .run (.serve host port)) :
    (∀ b, s.settings = .error b → run s words = .error b) ∧
      ∀ settings, s.settings = .ok settings →
        ∃ sources a, Settings.sourcesOf s.environment s.assignments = .ok sources ∧
          run s words = .ok (.serving a) ∧
          a.host = (host.filter (· ≠ [])).getD sources.host ∧
          some a.port = (port.filter (· ≠ 0)).or sources.port? ∧
          a.level = settings.level.lowerName := by
  have hrun : run s words = s.settings.map fun settings ↦ .serving (address settings host port) := by
    rw [run, hplan]
    rfl
  refine ⟨fun b hb ↦ by rw [hrun, hb]; rfl, fun settings hsettings ↦ ?_⟩
  obtain ⟨sources, hsources, hpassed⟩ := Surroundings.exists_sources hsettings
  have hgiven := Settings.given_of_sourcesOf hsources
  refine ⟨sources, address settings host port, hsources, by rw [hrun, hsettings]; rfl, ?_, ?_, rfl⟩
  · rw [← Settings.host_of_passed hgiven hpassed]
    cases host with
    | none => rfl
    | some t => by_cases ht : t = [] <;> simp [address, ht, Option.filter_some]
  · rw [Settings.port_of_passed hgiven hpassed]
    cases port with
    | none => rfl
    | some n => by_cases hn : n = 0 <;> simp [address, hn, Option.filter_some]

/-- What surrounds a run in an environment, with a file of assignments, perhaps, and nothing else. -/
def Surroundings.ofSettings (environment : Members Text) (file : Option Text) : Surroundings where
  environment := environment
  assignments := file.map Utf8.encode
  read _ := .error .missing
  input := []
  stages := ⟨.missing [], none, none⟩

/-- An empty host that is given, a port that is given, and both in the file, too. -/
theorem run_of_plan_serve_layered :
    let s : Surroundings := .ofSettings [(Text.ofString "PORT", Text.ofString "99")]
      (some (Text.ofString "HOST=10.0.0.1\nPORT=44\n"))
    let words := serving (some []) (some (Text.ofString "8080"))
    plan words = .run (.serve (some []) (some 8080)) ∧ (∃ settings, s.settings = .ok settings) ∧
      ∃ a, run s words = .ok (.serving a) ∧ a.host = Text.ofString "10.0.0.1" ∧ a.port = 8080 := by
  intro s words
  have hplan : plan words = .run (.serve (some []) (some 8080)) := plan_serving (some []) rfl
  obtain ⟨settings, hsettings⟩ : ∃ settings, s.settings = .ok settings := by
    have hsome : s.settings.toOption.isSome = true := by decide +kernel
    cases h : s.settings with
    | error b => simp [h, Except.toOption] at hsome
    | ok settings => exact ⟨settings, rfl⟩
  obtain ⟨sources, a, hsources, hrun, hhost, hport, -⟩ := (run_of_plan_serve hplan).2 settings hsettings
  have hfile : (Settings.sourcesOf s.environment s.assignments).toOption.map (·.host) =
      some (Text.ofString "10.0.0.1") := by decide +kernel
  rw [hsources] at hfile
  exact ⟨hplan, ⟨settings, hsettings⟩, a, hrun, hhost.trans (Option.some.inj hfile),
    Option.some.inj hport⟩

/-- The empty host and the port zero are given, and the program serves at another host and another port. -/
theorem run_serve_falsy :
    let words := ["serve", "--host", "", "--port", "0"].map Text.ofString
    plan words = .run (.serve (some []) (some 0)) ∧
      run (.ofSettings [] none) words =
        .ok (.serving ⟨Text.ofString "127.0.0.1", 3001, Text.ofString "info"⟩) := by
  intro words
  have hrun : (run (.ofSettings [] none) words).toOption =
      some (.serving ⟨Text.ofString "127.0.0.1", 3001, Text.ofString "info"⟩) := by decide +kernel
  refine ⟨by decide +kernel, ?_⟩
  cases h : run (.ofSettings [] none) words with
  | error b =>
    rw [h] at hrun
    cases hrun
  | ok report =>
    rw [h] at hrun
    exact congrArg Except.ok (Option.some.inj hrun)

end CodeAtlas.CommandLine
