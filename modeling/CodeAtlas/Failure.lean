import CodeAtlas.Canvas.Basic

/-!
# Failures

What can go wrong besides errors in a source, and who has to do with it. A rejected source is the
client's matter; a stage that fails on a clean tree is a defect, whatever it failed with; anything
else is classified by the status that it carries. Main statement: `status_of_classify_ne`, what is not
the client's matter is answered with 500.
-/

namespace CodeAtlas

/-- What a stage fails with. -/
inductive Failure where
  /-- A failure from outside, with the name of its kind, its words and the status that it carries. -/
  | foreign (kind text : Text) (status : Option Int)
  /-- An entity that cannot be drawn. -/
  | undrawable (u : Canvas.Undrawable)
  deriving DecidableEq

namespace Failure

/-- A failure in words. -/
def text : Failure → Text
  | foreign _ t _ => t
  | undrawable u => u.message

/-- The status that a failure carries. -/
def status : Failure → Option Int
  | foreign _ _ s => s
  | undrawable _ => none

end Failure

/-- Why a source is refused before it is read. -/
inductive Rejection where
  | empty
  | oversized (size : Nat) (limit : Int)
  deriving DecidableEq

namespace Rejection

/-- A rejection in words. -/
def message : Rejection → Text
  | empty => Text.ofString "Code is required"
  | oversized size limit =>
    Text.ofString "Code is " ++ Text.ofNat size ++ Text.ofString " bytes; the limit is " ++
      Text.ofInt limit

/-- The status of a rejection. -/
def status : Rejection → Int
  | empty => 400
  | oversized .. => 413

end Rejection

/-- The stages behind the parser. -/
inductive Stage where
  | extraction
  | visualization
  deriving DecidableEq

namespace Stage

/-- The name of a stage. -/
def name : Stage → Text
  | extraction => Text.ofString "extraction"
  | visualization => Text.ofString "visualization"

end Stage

/-- Why a request is not answered. -/
inductive Problem where
  /-- The source is refused, with these words and the status that is carried. -/
  | rejected (message : Text) (status : Option Int)
  /-- A stage failed on a clean tree. -/
  | defect (stage : Text) (cause : Failure)
  | other (failure : Failure)
  deriving DecidableEq

/-- Who has to do with a problem. -/
inductive Party where
  | client
  | defect
  | unknown
  deriving DecidableEq

namespace Party

/-- The name of a party. -/
def name : Party → String
  | client => "client"
  | defect => "defect"
  | unknown => "unknown"

end Party

namespace Problem

/-- The problem of a rejected source. -/
def ofRejection (r : Rejection) : Problem := rejected r.message (some r.status)

/-- The problem of a stage that failed. -/
def ofStage (s : Stage) (cause : Failure) : Problem := defect s.name cause

/-- A problem in words. -/
def text : Problem → Text
  | rejected message _ => message
  | defect stage cause => stage ++ Text.ofString " failed: " ++ cause.text
  | other failure => failure.text

/-- The status that a problem carries. A defect carries none, whatever it wraps. -/
def carried : Problem → Option Int
  | rejected _ status => status
  | defect .. => none
  | other failure => failure.status

/-- Who has to do with a problem. -/
def classify (p : Problem) : Party :=
  match p with
  | defect .. => .defect
  | _ =>
    match p.carried with
    | some s => if 400 ≤ s ∧ s < 500 then .client else if 500 ≤ s ∧ s < 600 then .defect else .unknown
    | none => .unknown

/-- The status that a problem is answered with. -/
def status (p : Problem) : Int := if p.classify = .client then p.carried.getD 400 else 500

/-- A problem that is not the client's matter is answered with 500. -/
theorem status_of_classify_ne {p : Problem} (h : p.classify ≠ .client) : p.status = 500 :=
  if_neg h

end Problem

end CodeAtlas
