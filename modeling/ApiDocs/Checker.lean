import ApiDocs.Checker.Values

set_option autoImplicit false

/-!
The checker: each question answered in terms of the others, and the questions that the rest of the
library asks.
-/

namespace ApiDocs

namespace Checker

/-- The answer to a question, given the answers to others. -/
def step (calls : Calls) : {α : Type} → Query α → Check α
  | _, .declaredType s => declaredType calls s
  | _, .typeParams s => typeParamsOf calls s
  | _, .valueType s => valueType calls s
  | _, .structure_ s => structureOf calls s
  | _, .shape t => shapeOf calls t
  | _, .evaluate t => evaluate calls t
  | _, .indexedAccess whole object index => indexedAccess calls whole object index
  | _, .lower scope e => lower calls scope e
  | _, .infer scope e => infer calls scope e
  | _, .patternType scope properties => patternType calls scope properties
  | _, .bindPattern scope pattern t => bindPattern calls scope t pattern
  | _, .returns sofar s => returns calls sofar s

/-- Ties the questions together. The number bounds how deep they nest: deeper ones are given up, and
something stands in for their answers. -/
def callsWithin : Nat → Calls
  | 0 => {
      ask := fun q => do
        Check.giveUp
        return q.fallback
      structure_known := fun _ _ _ => Or.inl rfl
      typeParams_known := fun _ _ _ => Or.inl rfl }
  | n + 1 => {
      ask := fun q => Check.delay fun _ => step (callsWithin n) q
      structure_known := fun s p c => (structureOf_known (callsWithin n) s p c).imp_left And.right
      typeParams_known := fun s p c => Or.inr (typeParamsOf_known (callsWithin n) s p c) }

theorem ask_callsWithin {α : Type} (n : Nat) (q : Query α) :
    (callsWithin (n + 1)).ask q = step (callsWithin n) q := rfl

/-- Questions that are worked out, and those below them as long as they are not nested too deep. -/
def callsTo (n : Nat) : Calls := callsWithin (n + 1)

theorem ask_callsTo {α : Type} (n : Nat) (q : Query α) : (callsTo (n + 1)).ask q = step (callsTo n) q :=
  rfl

/-- How deep questions may nest. The members of a generic alias that refers to itself can be those of
ever new types, so that no bound is deep enough for every program; a run that reaches this one is
marked. -/
def maxNesting : Nat := 100000

def calls : Calls := callsTo maxNesting

/-- A question from outside is worked out, and so are those that it asks. -/
theorem calls_deep : ∃ n, calls = callsTo (n + 2) := ⟨maxNesting - 2, rfl⟩

/-- A checker that has answered nothing yet. -/
def ofProgram (p : Program) : Checker := { bindings := Bindings.ofProgram p }

end Checker

namespace Check

def declaredType (s : SymbolId) : Check TypeId := Checker.calls.ask (.declaredType s)

def typeParams (s : SymbolId) : Check (List TypeId) := Checker.calls.ask (.typeParams s)

def valueType (s : SymbolId) : Check TypeId := Checker.calls.ask (.valueType s)

def evaluate (t : TypeId) : Check TypeId := Checker.calls.ask (.evaluate t)

def shape (t : TypeId) : Check Shape := Checker.calls.ask (.shape t)

def elementType? : Check (Option TypeId) := Checker.elementType? Checker.calls

def members (t : TypeId) : Check (List Member) := return (← shape t).members

def member? (t : TypeId) (name : String) : Check (Option Member) :=
  return (← shape t).member? name

def callSignatures (t : TypeId) : Check (List Signature) := return (← shape t).call

def constructSignatures (t : TypeId) : Check (List Signature) := return (← shape t).construct

def stringIndex? (t : TypeId) : Check (Option IndexInfo) := return (← shape t).stringIndex

end Check

end ApiDocs
