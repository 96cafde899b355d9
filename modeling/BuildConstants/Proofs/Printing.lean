import BuildConstants.Dialect.Basic
import BuildConstants.Proofs.Filling

/-!
# Direct printing of values

The printer writes a value at once, without templates: a scalar by the form of its place, a
container as its elements between brackets. It serves as the meaning of templates for the values
that fit their type.
-/

namespace BuildConstants

namespace ResolvedType

/-- Containers whose elements are written by their own kinds. -/
def isGeneric : ResolvedType → Bool
  | array .. | list .. | set .. => true
  | _ => false

/-- The type of the elements; what is not declared is a list of anything. -/
def elementOrList (t : ResolvedType) : ResolvedType :=
  t.element?.getD (.list none false)

end ResolvedType

namespace Literal

open ResolvedType Template

/-- A null or a scalar may stand anywhere; a sequence needs a type of sequences. -/
inductive Fits : ResolvedType → Tagged → Prop
  | null (t : ResolvedType) : Fits t .null
  | scalar (t : ResolvedType) (s : Scalar) : Fits t (.scalar s)
  | primitiveArray (k : ScalarKind) (n : Bool) {items : List Tagged}
      (h : ∀ v ∈ items, ∃ s, v = .scalar s) : Fits (.primitiveArray k n) (.tuple items)
  | generic {t : ResolvedType} (ht : t.isGeneric = true) {items : List Tagged}
      (h : ∀ v ∈ items, Fits t.elementOrList v) : Fits t (.tuple items)

theorem Fits.isSequence {t : ResolvedType} {items : List Tagged} (h : Fits t (.tuple items)) :
    t.isSequence = true := by
  cases h with
  | primitiveArray k n h => rfl
  | generic ht h => cases t <;> first | rfl | exact ht

/-- A spelled argument between two fixed texts. -/
structure Form where
  before : String
  hole : Hole
  after : String

namespace Form

def text (f : Form) : String :=
  f.before ++ String.ofList f.hole.mark ++ f.after

def write (style : Style) (f : Form) (s : Scalar) : Except Fault String := do
  let text ← spell style f.hole s
  return f.before ++ text ++ f.after

end Form

/-- The form of a scalar at a place. Declared primitives and strings choose it; at other places
the kind of the scalar does. -/
def placeForm (form : ScalarKind → Form) (t : ResolvedType) (s : Scalar) : Form :=
  match t with
  | .primitive k _ | .primitiveArray k _ => form k
  | .string _ => form .string
  | _ => form s.kind

/-- Texts between the brackets of a container; other types have no brackets. -/
def enclosed (style : Style) (texts : List String) : ResolvedType → Except Fault String
  | .primitiveArray k _ => .ok ((style.primitiveArray k).around style.separator texts)
  | .array e _ => do
    let brackets ← style.genericArray e
    return brackets.around style.separator texts
  | .list .. => .ok (style.list.around style.separator texts)
  | .set .. => .ok (style.set.around style.separator texts)
  | _ => .ok (String.join texts)

mutual

def print (style : Style) (form : ScalarKind → Form) (t : ResolvedType) :
    Tagged → Except Fault String
  | .null => .ok style.null
  | .scalar s => do
    let text ← (placeForm form t s).write style s
    enclosed style [text] t
  | .tuple items => do
    let texts ← printItems style form t items
    enclosed style texts t

def printItems (style : Style) (form : ScalarKind → Form) (t : ResolvedType) :
    List Tagged → Except Fault (List String)
  | [] => .ok []
  | item :: rest => do
    let text ← match item with
      | .null => .ok style.null
      | .scalar s => (placeForm form t s).write style s
      | .tuple items => print style form t.elementOrList (.tuple items)
    let texts ← printItems style form t rest
    return text :: texts

end

/-- No text of the style stands in the way of its holes, and every rule is a form. -/
structure Style.Regular (style : Style) (form : ScalarKind → Form) : Prop where
  rule : ∀ k, style.rule k = (form k).text
  before : ∀ k, PercentFree (form k).before
  after : ∀ k, PercentFree (form k).after
  null : PercentFree style.null
  separator : PercentFree style.separator
  primitiveArray : ∀ k, (style.primitiveArray k).PercentFree
  list : style.list.PercentFree
  set : style.set.PercentFree

/-- The style has brackets for every array in the type. -/
def Style.Creates (style : Style) : ResolvedType → Prop
  | .array none _ => ∃ b, style.genericArray none = .ok b ∧ b.PercentFree
  | .array (some e) _ =>
    (∃ b, style.genericArray (some e) = .ok b ∧ b.PercentFree) ∧ style.Creates e
  | .list (some e) _ | .set (some e) _ => style.Creates e
  | _ => True

theorem Style.Creates.array {style : Style} {e : Option ResolvedType} {n : Bool}
    (h : style.Creates (.array e n)) : ∃ b, style.genericArray e = .ok b ∧ b.PercentFree := by
  cases e with
  | none => exact h
  | some e => exact h.1

theorem Style.Creates.elementOrList {style : Style} {t : ResolvedType} (h : style.Creates t) :
    style.Creates t.elementOrList := by
  match t, h with
  | .array (some e) _, h => exact h.2
  | .list (some e) _, h | .set (some e) _, h => exact h
  | .array none _, _ | .list none _, _ | .set none _, _ => trivial
  | .primitive .., _ | .string _, _ | .primitiveArray .., _ | .named .., _ => trivial

section Regular

variable {style : Style} {form : ScalarKind → Form}

theorem Style.Regular.text_prints (hs : style.Regular form) (k : ScalarKind) (s : Scalar) :
    Prints style ⟨(form k).text, 1⟩ [s] ((form k).write style s) := by
  have hbefore : Prints style ⟨(form k).before, 0⟩ [] (.ok (form k).before) :=
    Prints.text (hs.before k)
  have hall := (hbefore.append (Prints.hole (form k).hole s)).append (Prints.text (hs.after k))
  simpa [Form.write, Form.text] using hall

theorem Style.Regular.scalar_eq (hs : style.Regular form) (k : ScalarKind) :
    style.scalar k = ⟨(form k).text, 1⟩ := by
  have hcount : countHoles (form k).text = 1 := (hs.text_prints k ⟨k, .null⟩).holes
  simp [Style.scalar, Template.ofText, hs.rule, hcount]

theorem Style.Regular.scalar_prints (hs : style.Regular form) (k : ScalarKind) (s : Scalar) :
    Prints style (style.scalar k) [s] ((form k).write style s) := by
  rw [hs.scalar_eq]
  exact hs.text_prints k s

def formatElement (style : Style) (e : Option ResolvedType) : Tagged → Except Fault Template
  | .null => .ok ⟨style.null, 0⟩
  | .scalar s => .ok (style.scalar s.kind)
  | .tuple items =>
    let t := e.getD (.list none false)
    if t.isSequence then format style t (.tuple items) else .ok .whole

theorem formatItems_cons (style : Style) (e : Option ResolvedType) (item : Tagged)
    (rest : List Tagged) : formatItems style e (item :: rest) = (do
      let part ← formatElement style e item
      let parts ← formatItems style e rest
      return part :: parts) := by
  cases item with
  | null => rfl
  | scalar s => rfl
  | tuple items =>
    simp only [formatItems, formatElement]
    split <;> rfl

def printElement (style : Style) (form : ScalarKind → Form) (t : ResolvedType) :
    Tagged → Except Fault String
  | .null => .ok style.null
  | .scalar s => (placeForm form t s).write style s
  | .tuple items => print style form t.elementOrList (.tuple items)

theorem printItems_cons (style : Style) (form : ScalarKind → Form) (t : ResolvedType)
    (item : Tagged) (rest : List Tagged) : printItems style form t (item :: rest) = (do
      let text ← printElement style form t item
      let texts ← printItems style form t rest
      return text :: texts) := by
  cases item <;> simp only [printItems, printElement]

theorem formatItems_prints {t : ResolvedType} {items : List Tagged}
    (h : ∀ v ∈ items, ∃ part, formatElement style t.element? v = .ok part ∧
      Prints style part v.flatten (printElement style form t v)) :
    ∃ parts, formatItems style t.element? items = .ok parts ∧
      PrintsAll style parts (items.flatMap Tagged.flatten) (printItems style form t items) := by
  induction items with
  | nil => exact ⟨[], rfl, .nil⟩
  | cons v rest ih =>
    obtain ⟨part, hpart, hprints⟩ := h v List.mem_cons_self
    obtain ⟨parts, hparts, hall⟩ := ih fun w hw => h w (List.mem_cons_of_mem v hw)
    refine ⟨part :: parts, ?_, ?_⟩
    · rw [formatItems_cons, hpart, hparts]
      rfl
    · rw [List.flatMap_cons, printItems_cons]
      exact .cons hprints hall

theorem primitiveItems_print (hs : style.Regular form) (k : ScalarKind) (n : Bool)
    {items : List Tagged} (h : ∀ v ∈ items, ∃ s, v = .scalar s) :
    PrintsAll style (items.map fun _ => style.scalar k) (items.flatMap Tagged.flatten)
      (printItems style form (.primitiveArray k n) items) := by
  induction items with
  | nil => exact .nil
  | cons v rest ih =>
    obtain ⟨s, rfl⟩ := h v List.mem_cons_self
    rw [List.map_cons, List.flatMap_cons, printItems_cons]
    exact .cons (hs.scalar_prints k s) (ih fun w hw => h w (List.mem_cons_of_mem _ hw))

theorem single_prints (hs : style.Regular form) (k : ScalarKind) (s : Scalar) :
    PrintsAll style [style.scalar k] [s] ((form k).write style s >>= fun x => .ok [x]) := by
  simpa using PrintsAll.cons (hs.scalar_prints k s) .nil

theorem format_scalar_prints (hs : style.Regular form) {t : ResolvedType} (hc : style.Creates t)
    (s : Scalar) : ∃ template, format style t (.scalar s) = .ok template ∧
      Prints style template [s] (print style form t (.scalar s)) := by
  have hbare (k : ScalarKind) : Prints style (style.scalar k) [s]
      ((form k).write style s >>= fun x => .ok (String.join [x])) := by
    simpa using hs.scalar_prints k s
  cases t with
  | primitive k n => exact ⟨_, rfl, hbare k⟩
  | string n => exact ⟨_, rfl, hbare .string⟩
  | named q as c n => exact ⟨_, rfl, hbare s.kind⟩
  | primitiveArray k n =>
    refine ⟨_, rfl, ?_⟩
    have h := (single_prints hs k s).join hs.separator (hs.primitiveArray k)
    simpa [print, placeForm, enclosed] using h
  | array e n =>
    obtain ⟨b, hb, hfree⟩ := hc.array
    refine ⟨.join style.separator b [style.scalar s.kind], by simp [format, hb], ?_⟩
    have h := (single_prints hs s.kind s).join hs.separator hfree
    simpa [print, placeForm, enclosed, hb] using h
  | list e n =>
    refine ⟨_, rfl, ?_⟩
    have h := (single_prints hs s.kind s).join hs.separator hs.list
    simpa [print, placeForm, enclosed] using h
  | set e n =>
    refine ⟨_, rfl, ?_⟩
    have h := (single_prints hs s.kind s).join hs.separator hs.set
    simpa [print, placeForm, enclosed] using h

theorem format_generic_prints (hs : style.Regular form) {t : ResolvedType}
    (ht : t.isGeneric = true) (hc : style.Creates t) {items : List Tagged}
    (h : ∀ v ∈ items, ∃ part, formatElement style t.element? v = .ok part ∧
      Prints style part v.flatten (printElement style form t v)) :
    ∃ template, format style t (.tuple items) = .ok template ∧
      Prints style template (items.flatMap Tagged.flatten)
        (print style form t (.tuple items)) := by
  obtain ⟨parts, hparts, hall⟩ := formatItems_prints h
  cases t with
  | primitive k n => cases ht
  | string n => cases ht
  | named q as c n => cases ht
  | primitiveArray k n => cases ht
  | array e n =>
    obtain ⟨b, hb, hfree⟩ := hc.array
    have hitems : formatItems style e items = .ok parts := hparts
    refine ⟨.join style.separator b parts, by simp [format, hb, hitems], ?_⟩
    simpa [print, enclosed, hb] using hall.join hs.separator hfree
  | list e n =>
    have hitems : formatItems style e items = .ok parts := hparts
    refine ⟨.join style.separator style.list parts, by simp [format, hitems], ?_⟩
    simpa [print, enclosed] using hall.join hs.separator hs.list
  | set e n =>
    have hitems : formatItems style e items = .ok parts := hparts
    refine ⟨.join style.separator style.set parts, by simp [format, hitems], ?_⟩
    simpa [print, enclosed] using hall.join hs.separator hs.set

theorem format_prints (hs : style.Regular form) {t : ResolvedType} {v : Tagged} (hv : Fits t v)
    (hc : style.Creates t) : ∃ template, format style t v = .ok template ∧
      Prints style template v.flatten (print style form t v) := by
  induction hv with
  | null t => exact ⟨⟨style.null, 0⟩, rfl, Prints.text hs.null⟩
  | scalar t s => exact format_scalar_prints hs hc s
  | @primitiveArray k n items h =>
    have hnull : items.any (·.isNull) = false := by
      rw [List.any_eq_false]
      intro v hv
      obtain ⟨s, rfl⟩ := h v hv
      simp [Tagged.isNull]
    refine ⟨.join style.separator (style.primitiveArray k) (items.map fun _ => style.scalar k),
      by simp [format, hnull], ?_⟩
    have hall := (primitiveItems_print hs k n h).join hs.separator (hs.primitiveArray k)
    simpa [print, enclosed, Tagged.flatten] using hall
  | @generic t ht items h ih =>
    have helement : ∀ v ∈ items, ∃ part, formatElement style t.element? v = .ok part ∧
        Prints style part v.flatten (printElement style form t v) := by
      intro v hv
      cases v with
      | null => exact ⟨⟨style.null, 0⟩, rfl, Prints.text hs.null⟩
      | scalar s =>
        have hplace : placeForm form t s = form s.kind := by
          cases t <;> first | rfl | cases ht
        refine ⟨style.scalar s.kind, rfl, ?_⟩
        rw [printElement, hplace]
        exact hs.scalar_prints s.kind s
      | tuple inner =>
        -- What fits is a sequence type, so the element is formatted at it and not taken whole.
        obtain ⟨part, hpart, hprints⟩ := ih _ hv hc.elementOrList
        have hsequence : (t.element?.getD (.list none false)).isSequence = true :=
          (h _ hv).isSequence
        refine ⟨part, ?_, hprints⟩
        simp only [formatElement, hsequence, if_true]
        exact hpart
    simpa [Tagged.flatten] using format_generic_prints hs ht hc helement

end Regular

end Literal

end BuildConstants
