import BuildConstants.Builtin
import BuildConstants.ClassRegistry
import BuildConstants.Fault
import BuildConstants.ResolvedType.Basic

/-!
# From declared to resolved types

A built-in name wins over every registered one. Errors of the name come first, then those of the
arguments from left to right, then arguments that the type does not take.
-/

namespace BuildConstants

namespace ResolvedType

/-- The type of a built-in name; primitives that cannot be null have arrays of their own. -/
def ofBuiltin (b : Builtin) (array nullable : Bool) : ResolvedType :=
  match b with
  | .string => .string false
  | .list => .list none false
  | .set => .set none false
  | _ => match b.primitive? with
    | some k => if array && !nullable then .primitiveArray k false else .primitive k false
    | none => .string false

def ofName (name : String) (array nullable : Bool) (registry : ClassRegistry) :
    Except Fault ResolvedType :=
  match Builtin.ofName? name with
  | some b => .ok (ofBuiltin b array nullable)
  | none => match registry.lookup name with
    | some entry => .ok (.named entry.qualified [] entry.container false)
    | none => .error (.unknownType name)

def withArguments (name : String) (arguments : List ResolvedType) :
    ResolvedType → Except Fault ResolvedType
  | list _ n => match arguments with
    | [a] => .ok (list (some a) n)
    | _ => .error (.argumentCount name arguments.length)
  | set _ n => match arguments with
    | [a] => .ok (set (some a) n)
    | _ => .error (.argumentCount name arguments.length)
  | named q _ true n => .ok (named q arguments true n)
  | _ => .error (.argumentsNotAllowed name)

/-- The marks of the declared type, put on its resolved base. -/
def mark (array nullable : Bool) (t : ResolvedType) : ResolvedType :=
  let marked := if nullable then t.withNullable true else t
  if array then
    match marked with
    | primitiveArray k n => primitiveArray k n
    | e => .array (some e) false
  else marked

end ResolvedType

namespace TypeExpr

open ResolvedType

mutual

def resolve (registry : ClassRegistry) : TypeExpr → Except Fault ResolvedType
  | ⟨name, array, nullable, arguments⟩ => do
    let base ← ofName name array nullable registry
    match arguments with
    | [] => return base.mark array nullable
    | a :: rest =>
      let a ← a.resolve registry
      let rest ← resolveAll registry rest
      let full ← base.withArguments name (a :: rest)
      return full.mark array nullable

def resolveAll (registry : ClassRegistry) : List TypeExpr → Except Fault (List ResolvedType)
  | [] => .ok []
  | t :: rest => do
    let t ← t.resolve registry
    let rest ← resolveAll registry rest
    return t :: rest

end

end TypeExpr

end BuildConstants
