import BuildConstants.Proofs.Shape
import BuildConstants.Proofs.TemplateReading

/-!
# Percent signs in class names

Java creates an array with the name of its class, and the name goes into the template as it is. A
percent sign in the name is then read as one of the template: the template has the holes that it
announces and those in the openings of its arrays.
-/

namespace BuildConstants

open Literal Outcome ResolvedType

/-- A template runs out of arguments or leaves some over. -/
def Fault.blamesHoles : Fault → Bool
  | missingArgument .. | unusedArguments .. => true
  | _ => false

namespace Literal

/-- Parts that stand in a list one behind the other, with anything between them. -/
inductive InOrder {α : Type} : List (List α) → List α → Prop
  | nil (xs : List α) : InOrder [] xs
  | cons {part : List α} {parts : List (List α)} {rest : List α} (before : List α)
      (h : InOrder parts rest) : InOrder (part :: parts) (before ++ part ++ rest)

namespace InOrder

variable {α : Type} {parts parts' : List (List α)} {xs ys : List α}

theorem behind (h : InOrder parts ys) (xs : List α) : InOrder parts (xs ++ ys) := by
  cases h with
  | nil => exact .nil _
  | cons before h =>
    rw [← List.append_assoc, ← List.append_assoc]
    exact .cons (xs ++ before) h

theorem append (h : InOrder parts xs) (h' : InOrder parts' ys) :
    InOrder (parts ++ parts') (xs ++ ys) := by
  induction h with
  | nil xs => exact h'.behind xs
  | cons before h ih =>
    rw [List.append_assoc, List.cons_append]
    exact .cons before ih

end InOrder

def Piece.letter? : Piece → Option Char
  | letter c => some c
  | hole _ => none

/-- What a text without holes reads as. -/
def reading (text : String) : List Char :=
  (pieces text.toList).filterMap Piece.letter?

theorem pieces_eq_reading {text : String} (h : countHoles text = 0) :
    pieces text.toList = (reading text).map .letter := by
  have hletters : ∀ ps : List Piece, holes ps = 0 →
      ps = (ps.filterMap Piece.letter?).map .letter := by
    intro ps hps
    induction ps with
    | nil => rfl
    | cons p ps ih =>
      cases p with
      | letter c => simpa [Piece.letter?] using ih (by simpa using hps)
      | hole k => simp at hps
  exact hletters _ h

theorem reading_percentFree {text : String} (h : PercentFree text) :
    countHoles text = 0 ∧ reading text = text.toList := by
  have hpieces := pieces_percentFree h
  constructor
  · rw [countHoles, hpieces]
    exact holes_letters _
  · rw [reading, hpieces, List.filterMap_map]
    exact List.filterMap_some

/-- The holes of all texts together. -/
def holesIn (texts : List String) : Nat :=
  texts.foldr (fun text count => countHoles text + count) 0

@[simp] theorem holesIn_nil : holesIn [] = 0 := rfl

@[simp] theorem holesIn_cons (text : String) (texts : List String) :
    holesIn (text :: texts) = countHoles text + holesIn texts := rfl

theorem holesIn_append (texts texts' : List String) :
    holesIn (texts ++ texts') = holesIn texts + holesIn texts' := by
  induction texts with
  | nil => simp
  | cons text texts ih => simp [ih, Nat.add_assoc]

theorem holesIn_eq_zero_iff {texts : List String} :
    holesIn texts = 0 ↔ ∀ text ∈ texts, countHoles text = 0 := by
  induction texts with
  | nil => simp
  | cons text texts ih => simp [ih]

theorem pieces_cons_cons (c d : Char) :
    (∃ p, ∀ cs, pieces (c :: d :: cs) = p :: pieces cs) ∨
    ∀ cs, pieces (c :: d :: cs) = .letter c :: pieces (d :: cs) := by
  by_cases hc : c = '%'
  · subst hc
    by_cases hpercent : d = '%'
    · exact .inl ⟨_, fun cs => by rw [hpercent, pieces]⟩
    by_cases hplain : d = 'L'
    · exact .inl ⟨_, fun cs => by rw [hplain, pieces]⟩
    by_cases hstring : d = 'S'
    · exact .inl ⟨_, fun cs => by rw [hstring, pieces]⟩
    by_cases hchar : d = 'C'
    · exact .inl ⟨_, fun cs => by rw [hchar, pieces]⟩
    · refine .inr fun cs => ?_
      rw [pieces] <;> simp [*]
  · exact .inr fun cs => pieces_cons_of_ne hc _

/-- A hole begins with a percent sign, so none reaches over the end of a text that does not end
with one. -/
theorem closed_of_getLast : ∀ cs : List Char, cs.getLast? ≠ some '%' → Closed cs
  | [], _ => fun _ => rfl
  | [c], h => by
    have hc : c ≠ '%' := by
      rintro rfl
      exact h rfl
    intro rest
    simp [pieces_cons_of_ne hc, pieces]
  | c :: d :: cs, h => by
    have hlast : (d :: cs).getLast? ≠ some '%' := by simpa using h
    intro rest
    rcases pieces_cons_cons c d with ⟨p, hp⟩ | hp
    · have htail : cs.getLast? ≠ some '%' := by
        cases cs with
        | nil => simp
        | cons e es => simpa using hlast
      rw [List.cons_append, List.cons_append, hp, hp, closed_of_getLast cs htail]
      rfl
    · rw [List.cons_append, List.cons_append, hp, hp, ← List.cons_append,
        closed_of_getLast (d :: cs) hlast]
      rfl

/-- The opening of an array, where the type is one and has an opening. -/
def ownOpening (style : Style) : ResolvedType → List String
  | .array e _ => match style.genericArray e with
    | .ok brackets => [brackets.opening]
    | .error _ => []
  | _ => []

mutual

/-- The openings of the arrays in the template of a value, from left to right. -/
def openings (style : Style) (t : ResolvedType) : Tagged → List String
  | .null => []
  | .scalar _ => ownOpening style t
  | .tuple items =>
    if t.isGeneric then ownOpening style t ++ openingsIn style t.elementOrList items else []

def openingsIn (style : Style) (t : ResolvedType) : List Tagged → List String
  | [] => []
  | item :: rest =>
    (match item with
      | .tuple items => openings style t (.tuple items)
      | _ => []) ++ openingsIn style t rest

end

def elementOpenings (style : Style) (t : ResolvedType) : Tagged → List String
  | .tuple items => openings style t (.tuple items)
  | _ => []

@[simp] theorem openingsIn_eq (style : Style) (t : ResolvedType) (items : List Tagged) :
    openingsIn style t items = items.flatMap (elementOpenings style t) := by
  induction items with
  | nil => rfl
  | cons item rest ih => cases item <;> simp [openingsIn, elementOpenings, ih]

theorem openings_of_isGeneric {style : Style} {t : ResolvedType} (ht : t.isGeneric = true)
    (items : List Tagged) : openings style t (.tuple items) =
      ownOpening style t ++ items.flatMap (elementOpenings style t.elementOrList) := by
  rw [openings, if_pos ht, openingsIn_eq]

theorem openings_of_not_isGeneric {style : Style} {t : ResolvedType} (ht : t.isGeneric = false)
    (items : List Tagged) : openings style t (.tuple items) = [] := by
  rw [openings, if_neg (by simp [ht])]

/-- The template has the holes that it announces and those of some texts, and these texts stand in
it in order. -/
structure Carries (template : Template) (texts : List String) : Prop where
  closed : Closed template.text.toList
  holes : countHoles template.text = template.count + holesIn texts
  order : InOrder (texts.map fun text => pieces text.toList) (pieces template.text.toList)

namespace Carries

variable {t u : Template} {texts texts' : List String}

theorem of_prints {style : Style} {args : List Scalar} {outcome : Except Fault String}
    (h : Prints style t args outcome) : Carries t [] where
  closed := h.closed
  holes := h.holes.trans h.count.symm
  order := .nil _

theorem percentFree {text : String} (h : PercentFree text) : Carries ⟨text, 0⟩ [] where
  closed := closed_percentFree h
  holes := (reading_percentFree h).1
  order := .nil _

theorem text {text : String} (h : Closed text.toList) : Carries ⟨text, 0⟩ [text] where
  closed := h
  holes := by simp
  order := by
    have horder : InOrder [pieces text.toList] ([] ++ pieces text.toList ++ []) :=
      .cons [] (.nil [])
    simpa using horder

theorem append (h : Carries t texts) (h' : Carries u texts') :
    Carries ⟨t.text ++ u.text, t.count + u.count⟩ (texts ++ texts') := by
  have hpieces : pieces (t.text ++ u.text).toList =
      pieces t.text.toList ++ pieces u.text.toList := by
    rw [String.toList_append, h.closed]
  constructor
  · rw [String.toList_append]
    exact h.closed.append h'.closed
  · have hcount : countHoles (t.text ++ u.text) = countHoles t.text + countHoles u.text := by
      rw [countHoles, hpieces]
      exact holes_append _ _
    rw [hcount, h.holes, h'.holes, holesIn_append]
    show t.count + _ + (u.count + _) = t.count + u.count + _
    omega
  · rw [hpieces, List.map_append]
    exact h.order.append h'.order

theorem intercalate {separator : String} (hs : PercentFree separator)
    {f : Tagged → Except Fault Template} {texts : Tagged → List String} {items : List Tagged}
    (h : ∀ v ∈ items, ∀ part, f v = .ok part → Carries part (texts v)) {parts : List Template}
    (hparts : collect f items = .ok parts) :
    Carries ⟨String.intercalate separator (parts.map (·.text)), total parts⟩
      (items.flatMap texts) := by
  induction items generalizing parts with
  | nil =>
    obtain rfl := Except.ok.inj hparts
    exact percentFree (by simp [PercentFree])
  | cons v rest ih =>
    obtain ⟨part, others, hpart, hothers, rfl⟩ := collect_cons_eq_ok hparts
    have hv := h v List.mem_cons_self part hpart
    have hrest := ih (fun w hw => h w (List.mem_cons_of_mem v hw)) hothers
    rw [List.flatMap_cons]
    cases others with
    | nil =>
      simpa [total] using hv.append hrest
    | cons other others =>
      have hall := hv.append ((percentFree hs).append hrest)
      simpa [total, String.append_assoc] using hall

theorem join {separator : String} {b : Template.Brackets} (hopening : Carries ⟨b.opening, 0⟩ texts)
    (hclosing : PercentFree b.closing) {parts : List Template}
    (hparts : Carries ⟨String.intercalate separator (parts.map (·.text)), total parts⟩ texts') :
    Carries (.join separator b parts) (texts ++ texts') := by
  have hall := hopening.append (hparts.append (percentFree hclosing))
  simpa [Template.join, total, String.append_assoc] using hall

end Carries

section Format

variable {style : Style} {form : ScalarKind → Form}

/-- Every array opening is read as if it stood alone, and what closes an array is plain text. -/
def Style.Opens (style : Style) : Prop :=
  ∀ e b, style.genericArray e = .ok b → Closed b.opening.toList ∧ PercentFree b.closing

theorem carries_brackets (hs : style.Regular form) (ha : style.Opens) {t : ResolvedType}
    {b : Template.Brackets} (hb : style.brackets t = .ok b) :
    Carries ⟨b.opening, 0⟩ (ownOpening style t) ∧ PercentFree b.closing := by
  cases t with
  | array e n =>
    have hb : style.genericArray e = .ok b := hb
    obtain ⟨hopening, hclosing⟩ := ha e b hb
    have hown : ownOpening style (.array e n) = [b.opening] := by simp [ownOpening, hb]
    rw [hown]
    exact ⟨.text hopening, hclosing⟩
  | primitiveArray k n =>
    obtain rfl := Except.ok.inj hb
    exact ⟨.percentFree (hs.primitiveArray k).opening, (hs.primitiveArray k).closing⟩
  | set e n =>
    obtain rfl := Except.ok.inj hb
    exact ⟨.percentFree hs.set.opening, hs.set.closing⟩
  | primitive k n | string n | list e n | named q as c n =>
    obtain rfl := Except.ok.inj hb
    exact ⟨.percentFree hs.list.opening, hs.list.closing⟩

theorem Style.Regular.scalar_carries (hs : style.Regular form) (k : ScalarKind) :
    Carries (style.scalar k) [] :=
  .of_prints (hs.scalar_prints k ⟨k, .null⟩)

theorem whole_carries (style : Style) : Carries .whole [] := by
  have hprints : Prints style .whole [⟨.other, .null⟩] _ := Prints.hole .plain _
  exact .of_prints hprints

/-- A container of one scalar is written as a container with this element. -/
theorem format_scalar {t : ResolvedType} {s : Scalar} {template : Template}
    (h : format style t (.scalar s) = .ok template) :
    (t.isSequence = false ∧ ∃ k, template = style.scalar k) ∨
    ∃ b k, style.brackets t = .ok b ∧ template = .join style.separator b [style.scalar k] := by
  cases t with
  | primitive k n | string n | named q as c n =>
    exact .inl ⟨rfl, _, (Except.ok.inj h).symm⟩
  | primitiveArray k n | list e n | set e n =>
    exact .inr ⟨_, _, rfl, (Except.ok.inj h).symm⟩
  | array e n =>
    obtain ⟨b, hb, h⟩ := bind_eq_ok_iff.mp h
    exact .inr ⟨b, _, hb, (Except.ok.inj h).symm⟩

/-- An element carries what it would alone; taken whole it carries nothing. -/
theorem carries_of_formatElement (hs : style.Regular form) {v : Tagged}
    (hformat : ∀ {t : ResolvedType} {template : Template}, format style t v = .ok template →
      Carries template (openings style t v))
    {e : Option ResolvedType} {part : Template} (h : formatElement style e v = .ok part) :
    Carries part (elementOpenings style (e.getD (.list none false)) v) := by
  cases v with
  | null =>
    obtain rfl := Except.ok.inj h
    exact .percentFree hs.null
  | scalar s =>
    obtain rfl := Except.ok.inj h
    exact hs.scalar_carries s.kind
  | tuple inner =>
    simp only [formatElement] at h
    split at h
    · exact hformat h
    · rename_i hsequence
      obtain rfl := Except.ok.inj h
      rw [elementOpenings, openings_of_not_isGeneric]
      · exact whole_carries style
      · cases hgeneric : (e.getD (.list none false)).isGeneric with
        | false => rfl
        | true => exact absurd (isSequence_of_isGeneric hgeneric) hsequence

theorem format_carries (hs : style.Regular form) (ha : style.Opens) {v : Tagged} :
    ∀ {t : ResolvedType} {template : Template}, format style t v = .ok template →
      Carries template (openings style t v) := by
  induction v using Tagged.induction with
  | null =>
    intro t template h
    obtain rfl := Except.ok.inj h
    exact .percentFree hs.null
  | scalar s =>
    intro t template h
    rcases format_scalar h with ⟨ht, k, rfl⟩ | ⟨b, k, hb, rfl⟩
    · have hnone : openings style t (.scalar s) = [] := by cases t <;> first | rfl | cases ht
      rw [hnone]
      exact hs.scalar_carries k
    · obtain ⟨hopening, hclosing⟩ := carries_brackets hs ha hb
      have hpart : Carries ⟨String.intercalate style.separator [(style.scalar k).text],
          total [style.scalar k]⟩ [] := by
        simpa [total] using hs.scalar_carries k
      have hall : Carries (.join style.separator b [style.scalar k]) (ownOpening style t ++ []) :=
        hopening.join hclosing hpart
      simpa [openings] using hall
  | tuple items ih =>
    intro t template h
    have helement {e : Option ResolvedType} : ∀ v ∈ items, ∀ part,
        formatElement style e v = .ok part →
          Carries part (elementOpenings style (e.getD (.list none false)) v) :=
      fun v hv part hpart => carries_of_formatElement hs (ih v hv) hpart
    cases ht : t.isGeneric with
    | true =>
      obtain ⟨parts, brackets, hparts, hb, rfl⟩ := format_generic ht h
      obtain ⟨hopening, hclosing⟩ := carries_brackets hs ha hb
      rw [openings_of_isGeneric ht]
      exact hopening.join hclosing (.intercalate hs.separator helement hparts)
    | false =>
      rw [openings_of_not_isGeneric ht]
      cases t with
      | primitive k n | string n =>
        obtain rfl := Except.ok.inj h
        exact hs.scalar_carries _
      | named q as c n =>
        obtain rfl := Except.ok.inj h
        exact whole_carries style
      | primitiveArray k n =>
        obtain ⟨-, rfl⟩ := format_primitiveArray h
        have hnone : (items.flatMap fun _ => ([] : List String)) = [] := by simp
        have hitems : Carries ⟨_, total (items.map fun _ => style.scalar k)⟩
            (items.flatMap fun _ => []) :=
          .intercalate hs.separator
            (fun v hv part hpart => by
              obtain rfl := Except.ok.inj hpart
              exact hs.scalar_carries k)
            (collect_const (style.scalar k) items)
        have hall := (Carries.percentFree (hs.primitiveArray k).opening).join
          (hs.primitiveArray k).closing hitems
        rwa [List.nil_append, hnone] at hall
      | array e n | list e n | set e n => cases ht

end Format

section Fill

variable {style : Style} {template : String}

theorem exists_fill_append {ps qs : List Piece} {consumed : Nat} {args : List Scalar}
    {cs : List Char} (h : fill style template consumed (ps ++ qs) args = .ok cs) :
    ∃ as bs n xs ys, fill style template consumed ps as = .ok xs ∧
      fill style template n qs bs = .ok ys ∧ cs = xs ++ ys := by
  have hholes := holes_of_fill h
  rw [holes_append] at hholes
  have htake : holes ps = (args.take (holes ps)).length := by
    rw [List.length_take]
    omega
  rw [← List.take_append_drop (holes ps) args, fill_append style template htake] at h
  obtain ⟨xs, hxs, h⟩ := bind_eq_ok_iff.mp h
  obtain ⟨ys, hys, h⟩ := bind_eq_ok_iff.mp h
  exact ⟨_, _, _, xs, ys, hxs, hys, (Except.ok.inj h).symm⟩

/-- Letters take no arguments and come out as they are. -/
theorem eq_of_fill_letters {consumed : Nat} {args : List Scalar} {cs out : List Char}
    (h : fill style template consumed (cs.map .letter) args = .ok out) : cs = out := by
  have hlength := holes_of_fill h
  rw [holes_letters] at hlength
  obtain rfl : args = [] := List.length_eq_zero_iff.mp hlength.symm
  rw [fill_letters] at h
  exact Except.ok.inj h

theorem inOrder_of_fill {parts : List (List Char)} : ∀ {ps : List Piece} {consumed : Nat}
    {args : List Scalar} {cs : List Char}, InOrder (parts.map (·.map Piece.letter)) ps →
      fill style template consumed ps args = .ok cs → InOrder parts cs := by
  induction parts with
  | nil =>
    intro ps consumed args cs h hfill
    exact .nil _
  | cons part parts ih =>
    intro ps consumed args cs h hfill
    cases h with
    | cons before h =>
      obtain ⟨as, bs, n, xs, ys, hxs, hys, rfl⟩ := exists_fill_append hfill
      obtain ⟨as', bs', n', xs', part', -, hpart, rfl⟩ := exists_fill_append hxs
      obtain rfl := eq_of_fill_letters hpart
      exact .cons xs' (ih h hys)

end Fill

theorem openings_percentFree {style : Style} {v : Tagged} : ∀ {t : ResolvedType},
    style.Creates t → ∀ o ∈ openings style t v, PercentFree o := by
  have hown {t : ResolvedType} (h : style.Creates t) : ∀ o ∈ ownOpening style t, PercentFree o := by
    cases t with
    | array e n =>
      obtain ⟨b, hb, hfree⟩ := h.array
      simpa [ownOpening, hb] using hfree.opening
    | _ => simp [ownOpening]
  induction v using Tagged.induction with
  | null =>
    intro t h o ho
    cases ho
  | scalar s =>
    intro t h
    exact hown h
  | tuple items ih =>
    intro t h o ho
    cases ht : t.isGeneric with
    | false =>
      rw [openings_of_not_isGeneric ht] at ho
      cases ho
    | true =>
      rw [openings_of_isGeneric ht] at ho
      rcases List.mem_append.mp ho with ho | ho
      · exact hown h o ho
      · obtain ⟨item, hitem, ho⟩ := List.mem_flatMap.mp ho
        cases item with
        | null | scalar s => cases ho
        | tuple inner => exact ih _ hitem h.elementOrList o ho

theorem failsOnly_plain (s : Scalar) : FailsOnly (·.blamesHoles = false) (plain s) := by
  intro e he
  unfold plain plainBoolean plainInteger plainFloating at he
  repeat' split at he
  all_goals first | cases he; rfl | cases he

end Literal

theorem Kotlin.style_opens : Kotlin.style.Opens := by
  intro e b hb
  obtain rfl := Except.ok.inj hb
  exact ⟨closed_percentFree (by decide), show PercentFree ")" by decide⟩

theorem Java.style_opens : Java.style.Opens := by
  intro e b hb
  cases e with
  | none => cases hb
  | some e =>
    obtain ⟨name, -, hb⟩ := bind_eq_ok_iff.mp hb
    obtain rfl := Except.ok.inj hb
    refine ⟨closed_of_getLast _ ?_, show PercentFree "\x7d" by decide⟩
    rw [String.toList_append, List.getLast?_append]
    simp

namespace Language

theorem style_opens (l : Language) : l.dialect.style.Opens := by
  cases l with
  | kotlin => exact Kotlin.style_opens
  | java => exact Java.style_opens

theorem failsOnly_spell (l : Language) (h : Hole) (s : Scalar) :
    FailsOnly (·.blamesHoles = false) (spell l.dialect.style h s) := by
  cases h with
  | plain =>
    cases l with
    | java => exact failsOnly_plain s
    | kotlin =>
      show FailsOnly _ (Kotlin.plain s)
      unfold Kotlin.plain
      split
      · exact failsOnly_ok _
      · exact failsOnly_plain s
  | string => exact failsOnly_ok _
  | char =>
    apply FailsOnly.bind
    · intro e he
      unfold charOf at he
      repeat' split at he
      all_goals first | cases he; rfl | cases he
    · intro c _
      exact failsOnly_ok _

section Initializer

variable {l : Language} {t : ResolvedType} {v : Tagged} {template : Template}

theorem format_openings (h : format l.dialect.style t v = .ok template) :
    Carries template (openings l.dialect.style t v) :=
  format_carries l.style_regular l.style_opens h

theorem initializer_eq_fill (h : format l.dialect.style t v = .ok template)
    (hcount : template.count = v.flatten.length) (name : String) :
    l.dialect.initializer name t (.literal v) =
      fill l.dialect.style template.text 0 (pieces template.text.toList) v.flatten >>=
        fun cs => .ok (String.ofList cs) := by
  rw [Dialect.initializer, h]
  simp [hcount, render]

theorem failsOnly_initializer (h : format l.dialect.style t v = .ok template)
    (hcount : template.count = v.flatten.length)
    (hnone : ∀ o ∈ openings l.dialect.style t v, countHoles o = 0) (name : String) :
    FailsOnly (·.blamesHoles = false) (l.dialect.initializer name t (.literal v)) := by
  have hholes : Literal.holes (pieces template.text.toList) = v.flatten.length := by
    have hcounts := (format_openings h).holes
    rw [holesIn_eq_zero_iff.mpr hnone, hcount] at hcounts
    exact hcounts
  rw [initializer_eq_fill h hcount]
  apply FailsOnly.bind (failsOnly_fill l.failsOnly_spell hholes 0)
  intro cs _
  exact failsOnly_ok _

theorem inOrder_initializer (h : format l.dialect.style t v = .ok template)
    (hcount : template.count = v.flatten.length)
    (hnone : ∀ o ∈ openings l.dialect.style t v, countHoles o = 0) {name text : String}
    (htext : l.dialect.initializer name t (.literal v) = .ok text) :
    InOrder ((openings l.dialect.style t v).map reading) text.toList := by
  rw [initializer_eq_fill h hcount] at htext
  obtain ⟨cs, hcs, htext⟩ := bind_eq_ok_iff.mp htext
  obtain rfl := Except.ok.inj htext
  have hletters : ((openings l.dialect.style t v).map reading).map (·.map Piece.letter) =
      (openings l.dialect.style t v).map fun o => pieces o.toList := by
    rw [List.map_map]
    exact List.map_congr_left fun o ho => (pieces_eq_reading (hnone o ho)).symm
  rw [String.toList_ofList]
  apply inOrder_of_fill _ hcs
  rw [hletters]
  exact (format_openings h).order

theorem error_of_hole (h : format l.dialect.style t v = .ok template)
    (hcount : template.count = v.flatten.length) {o : String}
    (ho : o ∈ openings l.dialect.style t v) (hhole : countHoles o ≠ 0) (name : String) :
    ∃ fault, l.dialect.initializer name t (.literal v) = .error fault := by
  have hsome : holesIn (openings l.dialect.style t v) ≠ 0 :=
    fun hnone => hhole (holesIn_eq_zero_iff.mp hnone o ho)
  rw [initializer_eq_fill h hcount]
  cases hfill : fill l.dialect.style template.text 0 (pieces template.text.toList) v.flatten with
  | error fault => exact ⟨fault, rfl⟩
  | ok cs =>
    -- A filled template has as many holes as leaves, so the openings have none.
    have hholes : countHoles template.text = v.flatten.length := holes_of_fill hfill
    have hcounts := (format_openings h).holes
    omega

end Initializer

/-- A template has as many holes as it announces only if the openings of its arrays have none.
Then no literal with as many leaves fails for their number, and the openings stand in its text as
they read. With a hole in an opening every literal that passes the count check fails. Kotlin, and
Java where no class name has a percent sign, have openings without holes that read as they are
written. -/
theorem holes_of_format (l : Language) {t : ResolvedType} {v : Tagged} {template : Template}
    (h : format l.dialect.style t v = .ok template) :
    countHoles template.text = template.count + holesIn (openings l.dialect.style t v) ∧
    (template.count = v.flatten.length → ∀ name,
      ((∀ o ∈ openings l.dialect.style t v, countHoles o = 0) →
        FailsOnly (·.blamesHoles = false) (l.dialect.initializer name t (.literal v)) ∧
        ∀ text, l.dialect.initializer name t (.literal v) = .ok text →
          InOrder ((openings l.dialect.style t v).map reading) text.toList) ∧
      ((∃ o ∈ openings l.dialect.style t v, countHoles o ≠ 0) →
        ∃ fault, l.dialect.initializer name t (.literal v) = .error fault)) ∧
    ∀ type classes, TypeExpr.resolve classes type = .ok t →
      (l = .java → ∀ q ∈ t.classNames, PercentFree q) →
      ∀ o ∈ openings l.dialect.style t v, countHoles o = 0 ∧ reading o = o.toList := by
  refine ⟨(format_openings h).holes, fun hcount name => ⟨?_, ?_⟩, ?_⟩
  · intro hnone
    constructor
    · exact failsOnly_initializer h hcount hnone name
    · intro text htext
      exact inOrder_initializer h hcount hnone htext
  · rintro ⟨o, ho, hhole⟩
    exact error_of_hole h hcount ho hhole name
  · intro type classes hresolve hq o ho
    have hcreates := (allows_of_resolve hresolve hq).creates
    exact reading_percentFree (openings_percentFree hcreates o ho)

/-- Doubled percent signs are no holes. -/
theorem holes_of_format_doubled :
    format java.dialect.style
        (.list (some (.array (some (.named "T%%X" [] false true)) true)) false)
        (.tuple [.tuple [], .null, .tuple [.null]]) =
      .ok ⟨"java.util.Arrays.asList(new T%%X[] \x7b\x7d, null, new T%%X[] \x7bnull\x7d)", 0⟩ ∧
    countHoles "java.util.Arrays.asList(new T%%X[] \x7b\x7d, null, new T%%X[] \x7bnull\x7d)" = 0 ∧
    ∀ name, FailsOnly (·.blamesHoles = false) (java.dialect.initializer name
        (.list (some (.array (some (.named "T%%X" [] false true)) true)) false)
        (.literal (.tuple [.tuple [], .null, .tuple [.null]]))) ∧
      ∀ text, java.dialect.initializer name
          (.list (some (.array (some (.named "T%%X" [] false true)) true)) false)
          (.literal (.tuple [.tuple [], .null, .tuple [.null]])) = .ok text →
        InOrder ["new T%X[] \x7b".toList, "new T%X[] \x7b".toList] text.toList := by
  have hformat : format java.dialect.style
        (.list (some (.array (some (.named "T%%X" [] false true)) true)) false)
        (.tuple [.tuple [], .null, .tuple [.null]]) =
      .ok ⟨"java.util.Arrays.asList(new T%%X[] \x7b\x7d, null, new T%%X[] \x7bnull\x7d)", 0⟩ :=
    rfl
  have hopenings : openings java.dialect.style
        (.list (some (.array (some (.named "T%%X" [] false true)) true)) false)
        (.tuple [.tuple [], .null, .tuple [.null]]) =
      ["new T%%X[] \x7b", "new T%%X[] \x7b"] := rfl
  have hholes : countHoles "new T%%X[] \x7b" = 0 := by decide
  obtain ⟨hcount, hrender, -⟩ := holes_of_format java hformat
  rw [hopenings] at hcount hrender
  refine ⟨hformat, by simpa [hholes] using hcount, fun name => ?_⟩
  exact (hrender rfl name).1 (by simp [hholes])

/-- A percent sign in a class name: the announced count is wrong, or the name comes out changed. -/
theorem format_misreads_class_names :
    (TypeExpr.resolve (ClassRegistry.empty.register "B" ⟨"a%LB", false⟩) ⟨"B", true, false, []⟩ =
        .ok (.array (some (.named "a%LB" [] false false)) false) ∧
      format java.dialect.style (.array (some (.named "a%LB" [] false false)) false) (.tuple []) =
        .ok ⟨"new a%LB[] \x7b\x7d", 0⟩ ∧
      countHoles "new a%LB[] \x7b\x7d" = 1 ∧
      java.dialect.emit ⟨"X", ⟨"B", true, false, []⟩, .literal (.tuple [])⟩
          (ClassRegistry.empty.register "B" ⟨"a%LB", false⟩) =
        .error (.constant "X" "B[]" "[]" "tuple" (.missingArgument "new a%LB[] \x7b\x7d" 0))) ∧
    ∃ d, java.dialect.emit ⟨"X", ⟨"B", true, false, []⟩, .literal (.tuple [])⟩
        (ClassRegistry.empty.register "B" ⟨"a%%B", false⟩) = .ok d ∧
      d.initializer = "new a%B[] \x7b\x7d" := by
  refine ⟨⟨?_, rfl, by decide, ?_⟩, ?_⟩
  · rfl
  · rfl
  · exact ⟨_, rfl, rfl⟩

end Language

end BuildConstants
