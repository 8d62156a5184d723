import BlockScript.Error.Compile
import BlockScript.Unit.Kind

/-!
# Open units

The units that are being generated form a stack. Opening a unit issues a handle,
and only the handle of the innermost unit closes it; a handle carries the stack
that issued it, so no other stack accepts it. Open units and the control-flow
regions entered between them share one nesting limit.
-/

namespace BlockScript

/-- The right to close one unit of one stack. -/
structure UnitHandle where
  /-- The stack that issued the handle. -/
  owner : Nat
  id : Nat
deriving DecidableEq, Repr

/-- A unit that is being generated. -/
structure OpenUnit (α : Type) where
  id : Nat
  kind : UnitKind
  name : String
  payload : α
deriving DecidableEq, Repr

/-- The unit as messages refer to it. -/
def OpenUnit.describe {α : Type} (unit : OpenUnit α) : String := unit.kind.describe unit.name

/-- A stack of open units. -/
structure UnitStack (α : Type) where
  /-- Tells this stack from every other one. -/
  owner : Nat
  nextId : Nat := 1
  /-- The open units, innermost first. -/
  units : List (OpenUnit α) := []
  /-- Control-flow regions that were entered and not yet left. -/
  nesting : Nat := 0
  maxNesting : Nat
deriving DecidableEq, Repr

namespace UnitStack

variable {α : Type}

/-- A stack without open units. -/
def new (owner maxNesting : Nat) : UnitStack α := { owner, maxNesting }

/-- The number of open units. -/
def size (stack : UnitStack α) : Nat := stack.units.length

/-- The innermost unit. -/
def top? (stack : UnitStack α) : Option (OpenUnit α) := stack.units.head?

/-- Replace what the innermost unit carries. -/
def mapTop (stack : UnitStack α) (f : α → α) : UnitStack α :=
  match stack with
  | { owner, nextId, units := unit :: outer, nesting, maxNesting } =>
    { owner, nextId, nesting, maxNesting
      units := match unit with
        | { id, kind, name, payload } => { id, kind, name, payload := f payload } :: outer }
  | empty => empty

/-- One more unit or region is within the limit. -/
def checkNesting (stack : UnitStack α) : Except CompileError Unit :=
  if stack.size + stack.nesting + 1 ≤ stack.maxNesting then .ok ()
  else .error (.exhausted .nestingDepth stack.maxNesting)

/-- Open a unit inside the innermost one. -/
def «open» (stack : UnitStack α) (kind : UnitKind) (name : String) (payload : α) :
    Except CompileError (UnitHandle × UnitStack α) := do
  stack.checkNesting
  let id := stack.nextId
  return (⟨stack.owner, id⟩,
    { stack with nextId := id + 1, units := { id, kind, name, payload } :: stack.units })

/-- Close the innermost unit. The handle must be the one issued for it and the unit
must be of the expected kind; otherwise nothing changes. -/
def close (stack : UnitStack α) (handle : UnitHandle) (kind : UnitKind) (line : Option UInt32) :
    Except CompileError (OpenUnit α × UnitStack α) :=
  if handle.owner ≠ stack.owner then .error (.violation .foreignHandle line)
  else match stack.units with
    | [] => .error (.violation .noOpenUnit line)
    | top :: outer =>
      if top.id ≠ handle.id then .error (.violation (.handleMismatch top.describe) line)
      else if top.kind ≠ kind then .error (.violation (.wrongUnitKind top.describe) line)
      else .ok (top, { stack with units := outer })

/-- Discard every unit but the outermost `count`. The discarded units come
outermost first; their handles match nothing any more. -/
def truncate (stack : UnitStack α) (count : Nat) : List (OpenUnit α) × UnitStack α :=
  let surplus := stack.size - count
  ((stack.units.take surplus).reverse, { stack with units := stack.units.drop surplus })

/-- Enter a control-flow region. -/
def enter (stack : UnitStack α) : Except CompileError (UnitStack α) := do
  stack.checkNesting
  return { stack with nesting := stack.nesting + 1 }

/-- Leave a control-flow region. -/
def exit (stack : UnitStack α) : UnitStack α := { stack with nesting := stack.nesting - 1 }

/-- How many frames outward a local may be reached from the innermost unit: one for
each closure in a row. -/
def reachableDepth (stack : UnitStack α) : Nat :=
  (stack.units.takeWhile (·.kind = .closure)).length

/-- Some open method would receive the block that a yield calls. -/
def insideMethod (stack : UnitStack α) : Bool :=
  (stack.units.takeWhile (·.kind ≠ .script)).any (·.kind = .method)

end UnitStack

end BlockScript
