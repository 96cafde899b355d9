import BuildConstants.Literal.Style

/-!
# Templates of values

The template of a value is built from its declared type: scalars by the rule of the declared
primitive, elements of generic containers by the rule of their own kind. A sequence at a place
whose type is no sequence takes one argument as it is.
-/

namespace BuildConstants.Literal

mutual

def format (style : Style) (t : ResolvedType) : Tagged → Except Fault Template
  | .null => .ok ⟨style.null, 0⟩
  | .scalar s => match t with
    | .primitive k _ => .ok (style.scalar k)
    | .string _ => .ok (style.scalar .string)
    | .named .. => .ok (style.scalar s.kind)
    | .primitiveArray k _ =>
      .ok (.join style.separator (style.primitiveArray k) [style.scalar k])
    | .array e _ => do
      let brackets ← style.genericArray e
      return .join style.separator brackets [style.scalar s.kind]
    | .list _ _ => .ok (.join style.separator style.list [style.scalar s.kind])
    | .set _ _ => .ok (.join style.separator style.set [style.scalar s.kind])
  | .tuple items => match t with
    | .primitive k _ => .ok (style.scalar k)
    | .string _ => .ok (style.scalar .string)
    | .named .. => .ok .whole
    | .primitiveArray k _ =>
      if items.any (·.isNull) then .error .nullElement
      else .ok (.join style.separator (style.primitiveArray k) (items.map fun _ => style.scalar k))
    | .array e _ => do
      let parts ← formatItems style e items
      let brackets ← style.genericArray e
      return .join style.separator brackets parts
    | .list e _ => do
      let parts ← formatItems style e items
      return .join style.separator style.list parts
    | .set e _ => do
      let parts ← formatItems style e items
      return .join style.separator style.set parts

/-- The templates of the elements of a container; an undeclared element type is a bare list. -/
def formatItems (style : Style) (element : Option ResolvedType) :
    List Tagged → Except Fault (List Template)
  | [] => .ok []
  | item :: rest => do
    let part ← match item with
      | .null => .ok ⟨style.null, 0⟩
      | .scalar s => .ok (style.scalar s.kind)
      | .tuple items =>
        let t := element.getD (.list none false)
        if t.isSequence then format style t (.tuple items) else .ok .whole
    let parts ← formatItems style element rest
    return part :: parts

end

end BuildConstants.Literal
