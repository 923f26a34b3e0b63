import CodeAtlas.CommandLine.Run
import CodeAtlas.Proofs.Http.Gate
import CodeAtlas.Proofs.Http.Submission
import CodeAtlas.Proofs.Service.Failing
import CodeAtlas.Proofs.Syntax.Nodes

/-!
# The service and the command line

A source that is put to the service and to the command line has the same answer in both places, since
both ask for it with the same settings and an empty cache. They report it differently, but an answer is
of one of four kinds, and each kind has a status of its own and a number of its own. A stage that fails
is reported by the service in words that tell nothing of the failure. Any text without surrogates and
carriage returns can be put to both (`Posed.ofShell`). Main statement: `agree_of_posed`.
-/

namespace CodeAtlas

open Json

/-! ### Answers -/

/-- What may become of a request. -/
inductive Ending : Except Problem Outcome → Prop
  | refused (x : Rejection) : Ending (.error (.ofRejection x))
  | failed (stage : Stage) (cause : Failure) : Ending (.error (.ofStage stage cause))
  | answered (o : Outcome) : Ending (.ok o)

/-- Every request ends in one of these ways, whatever a session has stored. -/
theorem ending_visualize {c : Store} (hc : Stocked c) (s : Stages) (r : Request) :
    Ending (visualize s r (some c)).1 := by
  have hends := Session.stepEnds_visualize hc s r
  cases hresult : (visualize s r (some c)).1 with
  | ok o => exact .answered o
  | error p =>
    have hp : (Session.step c (.visualize s r)).1.problem? = some p := by
      simp only [Session.step, hresult, Session.Answer.problem?]
    cases hends with
    | refused h =>
      cases hp.symm.trans h
      exact .refused _
    | explained h => cases hp.symm.trans h
    | extraction h | visualization h =>
      cases hp.symm.trans h
      exact .failed _ _
    | done h => cases hp.symm.trans h.problem?_eq_none

/-! ### The command line -/

/-- Where there is no carriage return, line ends stay as they are. -/
theorem Text.unifyLines_of_no_return {t : Text} (h : ∀ c ∈ t, c.val ≠ 0x0D) : t.unifyLines = t := by
  fun_induction unifyLines t with
  | case1 => rfl
  | case2 c hc => exact absurd (by simpa using hc) (h c (List.mem_singleton_self c))
  | case3 => rfl
  | case4 c d rest hc | case5 c d rest hc => exact absurd (by simpa using hc) (h c List.mem_cons_self)
  | case6 c d rest hc ih => rw [ih fun x hx ↦ h x (List.mem_cons_of_mem c hx)]

namespace CommandLine

/-- The standard input or the file with a name has these octets. -/
def Surroundings.Holds (s : Surroundings) (name : Text) (octets : List UInt8) : Prop :=
  if name = standardInput then s.input = octets
  else BadPath.ofText? name = none ∧ s.read (Path.ofText name) = .ok octets

/-- A text without surrogates and carriage returns is read as it was written. -/
theorem source_of_holds {s : Surroundings} {name text : Text} (hscalar : text.isScalar = true)
    (hreturn : ∀ c ∈ text, c.val ≠ 0x0D) (h : s.Holds name (Utf8.encode text)) :
    s.source name = .ok (.ok text) := by
  have htext : textOf (Utf8.encode text) = .ok text := by
    rw [textOf, Utf8.decodeStrict_encode hscalar]
    exact congrArg Except.ok (Text.unifyLines_of_no_return hreturn)
  unfold Surroundings.Holds at h
  unfold Surroundings.source
  split
  next hname =>
    rw [if_pos hname] at h
    rw [h, htext]
  next hname =>
    rw [if_neg hname] at h
    simp only [h.1, h.2, htext]

/-- The words that ask for the source on the standard input to be visualized. -/
def visualizing (language : Text) : List Text :=
  [Text.ofString "visualize", standardInput, Text.ofString "--language", language]

theorem plan_visualizing {language : Text} (hlanguage : Http.IsLanguage language) :
    plan (visualizing language) = .run (.visualize standardInput language .summary) := by
  revert language
  unfold Http.IsLanguage
  decide +kernel

/-- A shell with a key in its environment and nothing else. -/
def Surroundings.withKey (key : Text) (stages : Stages) : Surroundings where
  environment := [(Text.ofString "API_KEY", key)]
  assignments := none
  read _ := .error .missing
  input := []
  stages := stages

theorem Surroundings.settings_withKey (key : Text) (stages : Stages) :
    (withKey key stages).settings = .ok (Http.App.withKey key).settings := rfl

end CommandLine

/-! ### Both -/

/-- A source that is put to a service that has just been started and to the command line, with the same
settings and the same stages. -/
structure Posed where
  text : Text
  language : Text
  settings : Settings
  stages : Stages
  scalar : text.isScalar = true
  noReturn : ∀ c ∈ text, c.val ≠ 0x0D
  origins : List Text
  around : Http.Surroundings
  call : Http.Call
  around_stages : around.stages = stages
  submits : call.Submits settings.apiKey text language
  shell : CommandLine.Surroundings
  words : List Text
  name : Text
  format : Format
  shell_stages : shell.stages = stages
  shell_settings : shell.settings = .ok settings
  plan_words : CommandLine.plan words = .run (.visualize name language format)
  holds : shell.Holds name (Utf8.encode text)

/-- Any text without surrogates and carriage returns can be put to both in any of the languages, under any
settings that a shell gives and with any stages. -/
def Posed.ofShell (shell : CommandLine.Surroundings) {settings : Settings}
    (hsettings : shell.settings = .ok settings) (text : Text) (hscalar : text.isScalar = true)
    (hreturn : ∀ c ∈ text, c.val ≠ 0x0D) {language : Text} (hlanguage : Http.IsLanguage language) :
    Posed where
  text := text
  language := language
  settings := settings
  stages := shell.stages
  scalar := hscalar
  noReturn := hreturn
  origins := settings.originList
  around := ⟨shell.stages, true, [], []⟩
  call := .submitting settings.apiKey text language
  around_stages := rfl
  submits := Http.Call.submits_submitting _ hscalar hlanguage
  shell := { shell with input := Utf8.encode text }
  words := CommandLine.visualizing language
  name := CommandLine.standardInput
  format := .summary
  shell_stages := rfl
  shell_settings := hsettings
  plan_words := CommandLine.plan_visualizing hlanguage
  holds := by rw [CommandLine.Surroundings.Holds, if_pos rfl]

/-- A reply and a number report an answer of the same kind. -/
structure Agree (reply : Http.Reply) (exit : Nat) : Prop where
  shown : reply.status = 200 ∧ reply.errors? = some [] ↔ exit = 0
  explained : reply.status = 200 ∧ (∃ e es, reply.errors? = some (e :: es)) ↔ exit = 1
  refused : reply.status = 400 ∨ reply.status = 413 ↔ exit = 2
  failed : reply.status = 500 ↔ exit = 3

namespace Posed

/-- The reply of the service. -/
def reply (q : Posed) : Http.Reply :=
  ((Http.App.start q.settings q.origins).handle q.around q.call).1

/-- The report of the command line. -/
def report (q : Posed) : Except CommandLine.Breakdown CommandLine.Report :=
  CommandLine.run q.shell q.words

/-- The answer to the source. -/
def answer (q : Posed) : Except Problem Outcome :=
  (visualize q.stages ⟨q.text, q.language, q.settings.room, q.settings.maxBytes⟩
    (some (.empty q.settings.cacheCapacity q.settings.cacheCapacity_pos))).1

theorem ending_answer (q : Posed) : Ending q.answer :=
  ending_visualize (Cache.all_empty _ _) _ _

theorem reply_eq {q : Posed} (hkey : Http.isAscii q.settings.apiKey = true) :
    q.reply = Http.dress q.origins q.call (.ofAnswer q.answer) := by
  rw [answer, ← q.around_stages]
  exact Http.App.handle_of_submits (a := .start q.settings q.origins) hkey q.submits

theorem report_eq (q : Posed) : q.report = CommandLine.report q.name q.format q.answer := by
  rw [report, CommandLine.run, q.plan_words, answer, ← q.shell_stages]
  change CommandLine.runVisualize q.shell q.name q.language q.format = _
  simp only [CommandLine.runVisualize, q.shell_settings,
    CommandLine.source_of_holds q.scalar q.noReturn q.holds]
  rfl

end Posed

/-- Whatever the answer is, there is a report of it whose number agrees with the reply. -/
theorem exists_report_agree {answer : Except Problem Outcome} (name : Text) (format : Format)
    (origins : List Text) (call : Http.Call)
    (h : Ending answer) :
    ∃ report, CommandLine.report name format answer = .ok report ∧
      Agree (Http.dress origins call (.ofAnswer answer)) report.exit := by
  cases h with
  | refused x =>
    refine ⟨_, rfl, ?_⟩
    have hstatus := Http.Reply.status_ofAnswer_rejection x
    rw [← Http.dress_status origins call] at hstatus
    generalize Http.dress origins call _ = reply at hstatus ⊢
    change Agree reply 2
    constructor <;> rcases hstatus with hstatus | hstatus <;> simp [hstatus]
  | failed stage cause =>
    refine ⟨_, rfl, ?_⟩
    rw [Http.Reply.ofAnswer_stage]
    change Agree _ 3
    constructor <;> simp [Http.dress, Http.Reply.failure, Http.Reply.json]
  | answered o =>
    have hstatus : (Http.dress origins call (.ofAnswer (.ok o))).status = 200 := rfl
    have herrors : (Http.dress origins call (.ofAnswer (.ok o))).errors? =
      some (o.response.diagnostics.map (·.toJson)) := Http.Reply.errors?_ofAnswer_ok o
    generalize Http.dress origins call _ = reply at hstatus herrors ⊢
    cases hd : o.response.diagnostics with
    | nil =>
      refine ⟨_, if_neg (by simp [hd]), ?_⟩
      rw [hd] at herrors
      change Agree reply 0
      constructor <;> simp [hstatus, herrors]
    | cons d ds =>
      refine ⟨_, if_pos (by simp [hd]), ?_⟩
      rw [hd] at herrors
      change Agree reply 1
      constructor <;> simp [hstatus, herrors]

/-- A reply with status 500 to a source tells nothing but that its analysis failed. -/
theorem content_of_status_eq {answer : Except Problem Outcome}
    (h : Ending answer)
    (hstatus : (Http.Reply.ofAnswer answer).status = 500) :
    (Http.Reply.ofAnswer answer).content = .json (record [("error", str "analysis_failed"),
      ("message", str "Failed to analyze code")]) := by
  cases h with
  | refused x =>
    rcases Http.Reply.status_ofAnswer_rejection x with h | h <;> rw [h] at hstatus <;>
      exact absurd hstatus (by decide)
  | failed stage cause =>
    rw [Http.Reply.ofAnswer_stage]
    rfl
  | answered o =>
    have hok : (Http.Reply.ofAnswer (.ok o)).status = 200 := rfl
    rw [hok] at hstatus
    exact absurd hstatus (by decide)

namespace Posed

/-- The service and the command line agree, and the service keeps failures to itself. With a key in ASCII
or none, whatever text without surrogates and carriage returns is put to both, whatever the settings are
and whatever the parser, the extraction or the visualization fails with, the reply has status 200 and no
diagnostics exactly if the number is 0, status 200 and diagnostics exactly if it is 1, status 400 or 413
exactly if it is 2, and status 500 exactly if it is 3. Two replies with status 500 are the same, be the
sources, the settings and the failures what they may. -/
theorem agree_of_posed (q : Posed) (hkey : Http.isAscii q.settings.apiKey = true) :
    (∃ report, q.report = .ok report ∧ Agree q.reply report.exit) ∧
      ∀ q' : Posed, Http.isAscii q'.settings.apiKey = true → q.reply.status = 500 →
        q'.reply.status = 500 → q.reply.content = q'.reply.content := by
  refine ⟨?_, fun q' hkey' hstatus hstatus' ↦ ?_⟩
  · rw [reply_eq hkey, report_eq]
    exact exists_report_agree q.name q.format q.origins q.call q.ending_answer
  · rw [reply_eq hkey] at hstatus ⊢
    rw [reply_eq hkey'] at hstatus' ⊢
    exact (content_of_status_eq q.ending_answer hstatus).trans
      (content_of_status_eq q'.ending_answer hstatus').symm

/-- The source `x` in the default language, put to both with a key. -/
def ofKey (key : String) (stages : Stages) : Posed :=
  .ofShell (.withKey (Text.ofString key) stages) (CommandLine.Surroundings.settings_withKey _ _)
    (Text.ofString "x") (by decide) (by decide) Http.isLanguage_default

/-- An extraction that fails as if the client were to blame, and a visualization that fails otherwise. -/
theorem agree_of_posed_failing :
    let parser : Parser := .ofBuilder fun _ ↦ .branch "program" 0 1 none []
    let failing := ofKey "s3cret"
      ⟨parser, some (.foreign (Text.ofString "NotFound") (Text.ofString "gone") (some 404)), none⟩
    let failing' := ofKey ""
      ⟨parser, none, some (.foreign (Text.ofString "ValueError") (Text.ofString "bad") none)⟩
    Http.isAscii failing.settings.apiKey = true ∧ Http.isAscii failing'.settings.apiKey = true ∧
      failing.reply.status = 500 ∧ failing'.reply.status = 500 ∧
      (∃ report, failing.report = .ok report ∧ report.exit = 3) ∧
      failing.reply.content = failing'.reply.content := by
  intro parser failing failing'
  have hkey : Http.isAscii failing.settings.apiKey = true := by decide
  have hkey' : Http.isAscii failing'.settings.apiKey = true := by decide
  have hstatus : failing.reply.status = 500 := by
    rw [reply_eq hkey, Http.dress_status]
    decide +kernel
  have hstatus' : failing'.reply.status = 500 := by
    rw [reply_eq hkey', Http.dress_status]
    decide +kernel
  obtain ⟨⟨report, hreport, hagree⟩, hsame⟩ := agree_of_posed failing hkey
  exact ⟨hkey, hkey', hstatus, hstatus', ⟨report, hreport, hagree.failed.mp hstatus⟩,
    hsame failing' hkey' hstatus hstatus'⟩

/-- With a key that is not in ASCII the service breaks down over a source that the command line shows. -/
theorem not_agree_accented :
    let q := ofKey "é" ⟨.ofBuilder fun _ ↦ .branch "program" 0 1 none [], none, none⟩
    q.reply.status = 500 ∧ ∃ report, q.report = .ok report ∧ report.exit = 0 ∧
      ¬Agree q.reply report.exit := by
  intro q
  have hcors : Http.preflight? q.origins q.call = none := Http.preflight?_of_verb (by decide)
  have hstatus : q.reply.status = 500 := by
    rw [reply, Http.App.handle_of_broken hcors (by decide +kernel)]
    rfl
  have hexit : ∃ report, q.report = .ok report ∧ report.exit = 0 := by
    have hexit : q.report.toOption.map (·.exit) = some 0 := by
      rw [report_eq]
      decide +kernel
    cases hreport : q.report with
    | error b => simp [hreport, Except.toOption] at hexit
    | ok report => exact ⟨report, rfl, by simpa [hreport, Except.toOption] using hexit⟩
  obtain ⟨report, hreport, hzero⟩ := hexit
  refine ⟨hstatus, report, hreport, hzero, fun hagree ↦ ?_⟩
  have hthree := hagree.failed.mp hstatus
  rw [hzero] at hthree
  exact absurd hthree (by decide)

end Posed

end CodeAtlas
