import CodeAtlas.Cache
import CodeAtlas.Diagnosis
import CodeAtlas.Digest
import CodeAtlas.Failure
import CodeAtlas.Inventory.Extraction

/-!
# Analysis

`analyze` takes a source to its inventory, or to the diagnostics that explain why it has none. Both
the parser and the failures of later stages are parameters. With a cache, an inventory is found again
under the digest of its source; only inventories are stored. Main statements: `parse_failed_ne_nil`,
a source without a tree has a diagnostic, and `analyzeFresh_success_iff`, an analysis has an inventory
exactly if it has no diagnostics.
-/

namespace CodeAtlas

open Syntax

/-- Takes a text to its tree, or tells why there is none. -/
abbrev Parser := Text → Except Text ConcreteNode

namespace Parser

/-- A parser that refuses surrogates and reads every other text. -/
def ofBuilder (build : Text → ConcreteNode) : Parser := fun source ↦
  match Utf8.encodeStrict source with
  | .ok _ => .ok (build source)
  | .error e => .error e.message

/-- A parser that cannot be had. -/
def missing (reason : Text) : Parser := fun _ ↦ .error reason

end Parser

/-- What parsing a source yields. -/
inductive ParseOutcome where
  /-- A tree without errors. -/
  | clean (root : ConcreteNode)
  | failed (diagnostics : List Diagnostic)

/-- Parses a source. A tree with errors is explained and not handed on. -/
def parse (p : Parser) (source : Text) : ParseOutcome :=
  match p source with
  | .error reason => .failed [Diagnosis.ofReason reason]
  | .ok root => if root.hasError then .failed (Diagnosis.ofTree source root) else .clean root

/-- A source without a clean tree has a diagnostic. -/
theorem parse_failed_ne_nil {p : Parser} {source : Text} {ds : List Diagnostic}
    (h : parse p source = .failed ds) : ds ≠ [] := by
  unfold parse at h
  split at h
  · cases h; simp
  · split at h
    · cases h; exact Diagnosis.ofTree_ne_nil _ _
    · cases h

/-- The stages of the pipeline: the parser, and what the later ones fail with if they do. -/
structure Stages where
  parser : Parser
  extraction : Option Failure
  visualization : Option Failure

/-- The cache of a pipeline: inventories under the digests of their sources. -/
abbrev Store := Cache Text Inventory

/-- What an analysis yields. -/
structure Analysis where
  digest : Text
  inventory : Option Inventory
  diagnostics : List Diagnostic
  cached : Bool
  deriving DecidableEq

namespace Analysis

/-- Whether there is an inventory. -/
def success (a : Analysis) : Bool := a.inventory.isSome

end Analysis

/-- The inventory of a clean tree. -/
def extract (s : Stages) (source : Text) (root : ConcreteNode) : Except Problem Inventory :=
  match s.extraction with
  | some cause => .error (.ofStage .extraction cause)
  | none => .ok (Inventory.ofTree (root.view (Utf8.encode source)))

/-- Analyses a source without looking into a cache. -/
def analyzeFresh (s : Stages) (source : Text) : Except Problem Analysis :=
  let digest := Digest.ofText source
  match parse s.parser source with
  | .failed ds => .ok ⟨digest, none, ds, false⟩
  | .clean root => (extract s source root).map fun i ↦ ⟨digest, some i, [], false⟩

/-- Stores the inventory of an analysis. -/
def keep (c : Store) : Except Problem Analysis → Store
  | .ok ⟨digest, some i, _, _⟩ => c.insert digest i
  | _ => c

/-- Analyses a source, with a cache if there is one. -/
def analyze (s : Stages) (source : Text) :
    Option Store → Except Problem Analysis × Option Store
  | none => (analyzeFresh s source, none)
  | some c =>
    match c.lookup (Digest.ofText source) with
    | (some i, c) => (.ok ⟨Digest.ofText source, some i, [], true⟩, some c)
    | (none, c) =>
      let fresh := analyzeFresh s source
      (fresh, some (keep c fresh))

/-- A source that is found is not parsed. -/
theorem analyze_of_lookup_some {s : Stages} {source : Text} {c : Store} {i : Inventory}
    (h : (c.lookup (Digest.ofText source)).1 = some i) :
    analyze s source (some c) = (.ok ⟨Digest.ofText source, some i, [], true⟩,
      some (c.lookup (Digest.ofText source)).2) := by
  rw [analyze]
  generalize c.lookup (Digest.ofText source) = found at h ⊢
  obtain ⟨_, c'⟩ := found
  cases h
  rfl

/-- A source that is not found is analysed anew, and its inventory is stored. -/
theorem analyze_of_lookup_none {s : Stages} {source : Text} {c : Store}
    (h : (c.lookup (Digest.ofText source)).1 = none) :
    analyze s source (some c) = (analyzeFresh s source,
      some (keep (c.lookup (Digest.ofText source)).2 (analyzeFresh s source))) := by
  rw [analyze]
  generalize c.lookup (Digest.ofText source) = found at h ⊢
  obtain ⟨_, c'⟩ := found
  cases h
  rfl

/-- A fresh analysis has an inventory exactly if it has no diagnostics. -/
theorem analyzeFresh_success_iff {s : Stages} {source : Text} {a : Analysis}
    (h : analyzeFresh s source = .ok a) : a.success = true ↔ a.diagnostics = [] := by
  unfold analyzeFresh at h
  split at h
  next ds hp =>
    cases h
    simp [Analysis.success, parse_failed_ne_nil hp]
  next root hp =>
    cases he : extract s source root with
    | error e => rw [he] at h; cases h
    | ok i => rw [he] at h; cases h; simp [Analysis.success]

end CodeAtlas
