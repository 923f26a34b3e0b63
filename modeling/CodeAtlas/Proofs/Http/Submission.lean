import CodeAtlas.Http.Service
import CodeAtlas.Proofs.Json.Reading
import CodeAtlas.Proofs.Json.Strings
import CodeAtlas.Proofs.Text.Utf8

/-!
# Submitting a source

A call submits a source if its body is read as that source. Any scalar text can be submitted in any of the
languages: a body that is written of it is read back (`submits_submitting`). A source that is submitted
with its key is replied to with the answer to it (`handle_of_submits`).
-/

namespace CodeAtlas.Http

open Json

/-- A call that submits a source to be visualized, with the key if one is asked for. -/
structure Call.Submits (c : Call) (key text language : Text) : Prop where
  verb : c.verb = Text.ofString "POST"
  path : c.path = Text.ofString "/api/visualize"
  key : key ≠ [] → keyOf c = key
  submission : c.submission? = some (.passed ⟨text, language⟩)

/-- The languages of requests. -/
def IsLanguage (language : Text) : Prop := language ∈ Request.languages.map Text.ofString

theorem isLanguage_default : IsLanguage Request.defaultLanguage := .head _

/-! ### Replies -/

namespace Reply

/-- The diagnostics that a reply holds. -/
def errors? (r : Reply) : Option (List Json) :=
  match r.content with
  | .json v =>
    match v.member? "errors" with
    | some (.list es) => some es
    | _ => none
  | _ => none

/-- The reply to a source that is visualized. -/
def ofAnswer : Except Problem Outcome → Reply
  | .error p => App.problemReply p
  | .ok o => .json 200 o.response.toJson

/-- A source that is refused is replied to with one of two statuses. -/
theorem status_ofAnswer_rejection (x : Rejection) :
    (ofAnswer (.error (.ofRejection x))).status = 400 ∨
      (ofAnswer (.error (.ofRejection x))).status = 413 := by
  cases x with
  | empty => exact .inl rfl
  | oversized size limit => exact .inr rfl

/-- A stage that fails is replied to without a word on the failure. -/
theorem ofAnswer_stage (stage : Stage) (cause : Failure) :
    ofAnswer (.error (.ofStage stage cause)) =
      .failure 500 "analysis_failed" (Text.ofString "Failed to analyze code") := by
  have hdefect : (Problem.ofStage stage cause).classify ≠ .client := fun h ↦ nomatch h
  rw [ofAnswer, App.problemReply, if_neg hdefect, Problem.status_of_classify_ne hdefect]

theorem errors?_ofAnswer_ok (o : Outcome) :
    (ofAnswer (.ok o)).errors? = some (o.response.diagnostics.map (·.toJson)) := by
  have hmember : o.response.toJson.member? "errors" =
      some (.list (o.response.diagnostics.map (·.toJson))) := by
    simp [Response.toJson, record, member?, Members.get?, Text.ofString, CodePoint.ofChar]
  simp only [errors?, ofAnswer, Reply.json, hmember]

end Reply

namespace App

/-- A call that brings its key passes, if the key is in ASCII. -/
theorem admission_of_submits {key text language : Text} {c : Call} (hkey : isAscii key = true)
    (hc : c.Submits key text language) : admission key c = .passed := by
  by_cases hempty : key = []
  · subst hempty
    exact admission_eq_passed c
  · simp [admission, hc.key hempty, hkey]

/-- A source that is submitted with its key is replied to with its answer. -/
theorem handle_of_submits {a : App} {s : Surroundings} {c : Call} {text language : Text}
    (hkey : isAscii a.settings.apiKey = true) (hc : c.Submits a.settings.apiKey text language) :
    (a.handle s c).1 = dress a.origins c (.ofAnswer (CodeAtlas.visualize s.stages
      ⟨text, language, a.settings.room, a.settings.maxBytes⟩ (some a.cache)).1) := by
  have hcors : preflight? a.origins c = none := by
    refine preflight?_of_verb ?_
    rw [hc.verb]
    decide
  have hroute : resolve c.verb c.path = .found .visualize := by
    rw [hc.verb, hc.path]
    decide
  simp only [handle, hcors, admission_of_submits hkey hc, route, hroute, take, submit, hc.submission]
  congr 1
  unfold visualize
  dsimp only
  cases (CodeAtlas.visualize s.stages ⟨text, language, a.settings.room, a.settings.maxBytes⟩
    (some a.cache)).1 <;> rfl

end App

/-! ### Bodies -/

variable {text language : Text}

namespace Submission

/-- The members of a body that submits a source. -/
def members (text language : Text) : List (Text × Text) :=
  [(Text.ofString "code", text), (Text.ofString "language", language)]

/-- A body that submits a source. -/
def body (text language : Text) : Text := Layout.plain.write 0 (.object (ofTexts (members text language)))

theorem isScalar_body (htext : text.isScalar = true) (hlanguage : IsLanguage language) :
    (body text language).isScalar = true := by
  obtain ⟨l, -, rfl⟩ := List.mem_map.1 hlanguage
  refine Layout.isScalar_write _ _ _ (isScalar_object.mpr ?_)
  simp [ofTexts, members, htext]

theorem ofJson_members (hlanguage : IsLanguage language) :
    ofJson (.object (Members.ofPairs (ofTexts (members text language)))) = .passed ⟨text, language⟩ := by
  have hlanguages : language ∈ [Text.ofString "javascript", Text.ofString "typescript",
    Text.ofString "python"] := hlanguage
  simp only [List.mem_cons, List.not_mem_nil, or_false] at hlanguages
  rcases hlanguages with rfl | rfl | rfl <;> rfl

end Submission

/-- A call that submits a source. -/
def Call.submitting (key text language : Text) : Call where
  verb := Text.ofString "POST"
  target := Text.ofString "/api/visualize"
  headers := [(Text.ofString "Content-Type", Text.ofString "application/json"),
    (Text.ofString "X-API-Key", key)]
  body := Utf8.encode (Submission.body text language)

/-- Any scalar text can be submitted, in any of the languages and with any key. -/
theorem Call.submits_submitting (key : Text) (htext : text.isScalar = true)
    (hlanguage : IsLanguage language) : (submitting key text language).Submits key text language where
  verb := rfl
  path := by
    change Utf8.decode (unescape ((Text.ofString "/api/visualize").takeWhile _)) = _
    decide +kernel
  key _ := rfl
  submission := by
    have hempty : (submitting key text language).body.isEmpty = false := rfl
    have hjson : (submitting key text language).bringsJson = true := by
      change namesJson (Text.ofString "application/json") = true
      decide +kernel
    have hmark : withoutMark (submitting key text language).body =
      Utf8.encode (Submission.body text language) := rfl
    have hdecode := Utf8.decodeStrict_encode (Submission.isScalar_body htext hlanguage)
    have hread : Json.read (Submission.body text language) =
        .ok (.object (Members.ofPairs (ofTexts (Submission.members text language)))) :=
      read_write_texts _ text _
    simp only [submission?, hempty, hjson, hmark, hdecode, hread, Submission.ofJson_members hlanguage]
    rfl

end CodeAtlas.Http
