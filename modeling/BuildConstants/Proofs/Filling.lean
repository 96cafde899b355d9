import BuildConstants.Literal.Format
import BuildConstants.Literal.Render
import BuildConstants.Proofs.Outcome

/-!
# Filling joined templates

A text is closed if no hole reaches over its end: what stands behind it is read as if it stood
alone. A template prints an outcome if it is closed, has one hole for each argument, and filling
it gives the outcome. Joining templates that print keeps all three.
-/

namespace BuildConstants.Literal

open Template (Brackets)

def Hole.mark : Hole → List Char
  | plain => ['%', 'L']
  | string => ['%', 'S']
  | char => ['%', 'C']

def PercentFree (s : String) : Prop :=
  '%' ∉ s.toList

instance (s : String) : Decidable (PercentFree s) :=
  inferInstanceAs (Decidable ('%' ∉ s.toList))

theorem PercentFree.append {s t : String} (hs : PercentFree s) (ht : PercentFree t) :
    PercentFree (s ++ t) := by
  rw [PercentFree, String.toList_append, List.mem_append, not_or]
  exact ⟨hs, ht⟩

theorem PercentFree.intercalate {separator : String} (hs : PercentFree separator)
    {ss : List String} (h : ∀ s ∈ ss, PercentFree s) :
    PercentFree (String.intercalate separator ss) := by
  induction ss with
  | nil => simp [PercentFree]
  | cons s ss ih =>
    have hfirst := h s List.mem_cons_self
    have hrest := ih fun t ht => h t (List.mem_cons_of_mem s ht)
    cases ss with
    | nil => simpa using hfirst
    | cons t ss =>
      rw [String.intercalate_cons_cons]
      exact (hfirst.append hs).append hrest

def Closed (cs : List Char) : Prop :=
  ∀ rest, pieces (cs ++ rest) = pieces cs ++ pieces rest

theorem pieces_cons_of_ne {c : Char} (h : c ≠ '%') (rest : List Char) :
    pieces (c :: rest) = .letter c :: pieces rest := by
  rw [pieces.eq_def]
  split <;> simp_all

theorem pieces_percentFree_append {cs : List Char} (h : '%' ∉ cs) (rest : List Char) :
    pieces (cs ++ rest) = cs.map .letter ++ pieces rest := by
  induction cs with
  | nil => rfl
  | cons c cs ih =>
    rw [List.mem_cons, not_or] at h
    rw [List.cons_append, pieces_cons_of_ne (Ne.symm h.1), ih h.2]
    rfl

theorem pieces_percentFree {cs : List Char} (h : '%' ∉ cs) : pieces cs = cs.map .letter := by
  simpa [pieces] using pieces_percentFree_append h []

theorem pieces_mark_append (h : Hole) (rest : List Char) :
    pieces (h.mark ++ rest) = .hole h :: pieces rest := by
  cases h <;> simp [Hole.mark, pieces]

theorem closed_percentFree {cs : List Char} (h : '%' ∉ cs) : Closed cs := by
  intro rest
  rw [pieces_percentFree_append h, pieces_percentFree h]

theorem closed_mark (h : Hole) : Closed h.mark := by
  intro rest
  have hmark : pieces h.mark = [.hole h] := by simpa [pieces] using pieces_mark_append h []
  rw [pieces_mark_append, hmark]
  rfl

theorem Closed.append {as bs : List Char} (ha : Closed as) (hb : Closed bs) :
    Closed (as ++ bs) := by
  intro rest
  rw [List.append_assoc, ha, hb, ha, List.append_assoc]

def holes (ps : List Piece) : Nat :=
  ps.countP (·.isHole)

@[simp] theorem holes_letter (c : Char) (ps : List Piece) : holes (.letter c :: ps) = holes ps := by
  simp [holes, Piece.isHole]

@[simp] theorem holes_hole (h : Hole) (ps : List Piece) : holes (.hole h :: ps) = holes ps + 1 := by
  simp [holes, Piece.isHole]

@[simp] theorem holes_append (ps qs : List Piece) : holes (ps ++ qs) = holes ps + holes qs :=
  List.countP_append

@[simp] theorem holes_letters (cs : List Char) : holes (cs.map .letter) = 0 := by
  induction cs with
  | nil => rfl
  | cons c cs ih => rw [List.map_cons, holes_letter, ih]

/-- Pieces that take all of their arguments are filled without a look at what follows. -/
theorem fill_append (style : Style) (template : String) {ps qs : List Piece}
    {as bs : List Scalar} (h : holes ps = as.length) (consumed : Nat) :
    fill style template consumed (ps ++ qs) (as ++ bs) = (do
      let xs ← fill style template consumed ps as
      let ys ← fill style template (consumed + as.length) qs bs
      return xs ++ ys) := by
  induction ps generalizing as consumed with
  | nil =>
    obtain rfl : as = [] := List.length_eq_zero_iff.mp h.symm
    simp [fill]
  | cons p ps ih =>
    cases p with
    | letter c =>
      have hps : holes ps = as.length := by simpa using h
      simp [fill, ih hps]
    | hole k =>
      -- The hole takes the first argument that is left, so there is one.
      cases as with
      | nil => simp at h
      | cons a as =>
        have hps : holes ps = as.length := by simpa using h
        have hcount : consumed + 1 + as.length = consumed + (as.length + 1) := by omega
        simp [fill, ih hps, hcount]

theorem fill_letters (style : Style) (template : String) (consumed : Nat) (cs : List Char) :
    fill style template consumed (cs.map .letter) [] = .ok cs := by
  induction cs with
  | nil => rfl
  | cons c cs ih => simp only [List.map_cons, fill, ih]; rfl

/-- Filling the template with the arguments gives the outcome, wherever the template stands. -/
structure Prints (style : Style) (t : Template) (args : List Scalar)
    (outcome : Except Fault String) : Prop where
  closed : Closed t.text.toList
  count : t.count = args.length
  holes : holes (pieces t.text.toList) = args.length
  fill : ∀ template consumed, fill style template consumed (pieces t.text.toList) args =
    outcome >>= fun s => .ok s.toList

namespace Prints

variable {style : Style} {t u : Template} {args args' : List Scalar}
  {outcome outcome' : Except Fault String}

theorem render_eq (h : Prints style t args outcome) : render style t.text args = outcome := by
  simp [render, h.fill]

theorem text {s : String} (h : PercentFree s) : Prints style ⟨s, 0⟩ [] (.ok s) where
  closed := closed_percentFree h
  count := rfl
  holes := by rw [pieces_percentFree h, holes_letters]; rfl
  fill template consumed := by rw [pieces_percentFree h, fill_letters]; rfl

theorem hole (k : Hole) (s : Scalar) :
    Prints style ⟨String.ofList k.mark, 1⟩ [s] (spell style k s) := by
  have hpieces : pieces k.mark = [.hole k] := by simpa [pieces] using pieces_mark_append k []
  constructor
  · simpa using closed_mark k
  · rfl
  · rw [String.toList_ofList, hpieces]
    rfl
  · intro template consumed
    simp [hpieces, Literal.fill]

theorem append (h : Prints style t args outcome) (h' : Prints style u args' outcome') :
    Prints style ⟨t.text ++ u.text, t.count + u.count⟩ (args ++ args')
      (do let s ← outcome; let s' ← outcome'; return s ++ s') := by
  have hpieces : pieces (t.text ++ u.text).toList =
      pieces t.text.toList ++ pieces u.text.toList := by
    rw [String.toList_append, h.closed]
  constructor
  · rw [String.toList_append]
    exact h.closed.append h'.closed
  · simp [h.count, h'.count]
  · rw [hpieces, holes_append, h.holes, h'.holes, List.length_append]
  · intro template consumed
    rw [hpieces, fill_append style template h.holes, h.fill, h'.fill]
    simp

end Prints

/-- Templates that print one after the other, each with its own part of the arguments. -/
inductive PrintsAll (style : Style) :
    List Template → List Scalar → Except Fault (List String) → Prop
  | nil : PrintsAll style [] [] (.ok [])
  | cons {t : Template} {ts : List Template} {args args' : List Scalar}
      {outcome : Except Fault String} {outcomes : Except Fault (List String)} :
      Prints style t args outcome → PrintsAll style ts args' outcomes →
      PrintsAll style (t :: ts) (args ++ args')
        (do let s ← outcome; let ss ← outcomes; return s :: ss)

def Template.Brackets.around (b : Brackets) (separator : String) (texts : List String) : String :=
  b.opening ++ String.intercalate separator texts ++ b.closing

structure Template.Brackets.PercentFree (b : Brackets) : Prop where
  opening : Literal.PercentFree b.opening
  closing : Literal.PercentFree b.closing

theorem PrintsAll.intercalate {style : Style} {separator : String} (hs : PercentFree separator)
    {ts : List Template} {args : List Scalar} {outcomes : Except Fault (List String)}
    (h : PrintsAll style ts args outcomes) :
    Prints style ⟨String.intercalate separator (ts.map (·.text)),
        ts.foldr (fun t n => t.count + n) 0⟩ args
      (outcomes >>= fun ss => .ok (String.intercalate separator ss)) := by
  induction h with
  | nil => exact Prints.text (by simp [PercentFree])
  | @cons t ts args args' outcome outcomes ht hts ih =>
    cases hts with
    | nil =>
      simpa using ht
    | @cons t' ts' as as' o' os' ht' hts' =>
      have hrest := ht.append ((Prints.text hs).append ih)
      simpa [String.append_assoc] using hrest

theorem PrintsAll.join {style : Style} {separator : String} (hs : PercentFree separator)
    {b : Brackets} (hb : b.PercentFree) {ts : List Template} {args : List Scalar}
    {outcomes : Except Fault (List String)} (h : PrintsAll style ts args outcomes) :
    Prints style (Template.join separator b ts) args
      (outcomes >>= fun ss => .ok (b.around separator ss)) := by
  have hall := (Prints.text hb.opening).append ((h.intercalate hs).append (Prints.text hb.closing))
  simpa [Template.join, Template.Brackets.around, String.append_assoc] using hall

end BuildConstants.Literal
