import BuildConstants.Dialect.Java
import BuildConstants.Proofs.Filling
import Mathlib.Data.List.Forall2

/-!
# Reading and filling templates

A template is read from left to right, and no sign of it is read twice. Filling spells the
arguments in the order of the holes. Only then does it matter how many there are: with one for
each hole the spelled texts take the places of the holes.
-/

namespace BuildConstants

open Outcome

/-- All outcomes in order, or the first error. -/
theorem collect_outcome {α β : Type} (f : α → Except Fault β) (items : List α) :
    (∃ bs, List.Forall₂ (fun a b => f a = .ok b) items bs ∧ collect f items = .ok bs) ∨
    ∃ before a behind e, items = before ++ a :: behind ∧ (∀ x ∈ before, ∃ b, f x = .ok b) ∧
      f a = .error e ∧ collect f items = .error e := by
  induction items with
  | nil => exact .inl ⟨[], .nil, rfl⟩
  | cons a rest ih =>
    cases ha : f a with
    | error e => exact .inr ⟨[], a, rest, e, rfl, by simp, ha, by simp [collect, ha]⟩
    | ok b =>
      rcases ih with ⟨bs, hbs, hcollect⟩ | ⟨before, x, behind, e, rfl, hbefore, hx, hcollect⟩
      · exact .inl ⟨b :: bs, .cons ha hbs, by simp [collect, ha, hcollect]⟩
      · refine .inr ⟨a :: before, x, behind, e, rfl, ?_, hx, by simp [collect, ha, hcollect]⟩
        intro y hy
        rcases List.mem_cons.mp hy with rfl | hy
        · exact ⟨b, ha⟩
        · exact hbefore y hy

theorem failsOnly_collect {α β : Type} {P : Fault → Prop} {f : α → Except Fault β} {as : List α}
    (h : ∀ a ∈ as, FailsOnly P (f a)) : FailsOnly P (collect f as) := by
  induction as with
  | nil => exact failsOnly_ok _
  | cons a rest ih =>
    exact (h a List.mem_cons_self).bind fun _ _ =>
      (ih fun b hb => h b (List.mem_cons_of_mem a hb)).bind fun _ _ => failsOnly_ok _

namespace Literal

/-- What a percent sign and the sign behind it stand for together. -/
inductive Mark : Char → Piece → Prop
  | percent : Mark '%' (.letter '%')
  | plain : Mark 'L' (.hole .plain)
  | string : Mark 'S' (.hole .string)
  | char : Mark 'C' (.hole .char)

/-- No mark begins with `c` in front of the rest. -/
def Unmarked (c : Char) (rest : List Char) : Prop :=
  ∀ code p, Mark code p → ¬ (c = '%' ∧ rest.head? = some code)

inductive ReadsAs : List Char → List Piece → Prop
  | nil : ReadsAs [] []
  | mark {code : Char} {p : Piece} {rest : List Char} {ps : List Piece} (hmark : Mark code p)
      (hrest : ReadsAs rest ps) : ReadsAs ('%' :: code :: rest) (p :: ps)
  | letter {c : Char} {rest : List Char} {ps : List Piece} (hc : Unmarked c rest)
      (hrest : ReadsAs rest ps) : ReadsAs (c :: rest) (.letter c :: ps)

theorem pieces_mark {code : Char} {p : Piece} (h : Mark code p) (rest : List Char) :
    pieces ('%' :: code :: rest) = p :: pieces rest := by
  cases h <;> rw [pieces]

theorem pieces_letter {c : Char} {rest : List Char} (h : Unmarked c rest) :
    pieces (c :: rest) = .letter c :: pieces rest := by
  rw [pieces]
  · rintro more rfl rfl
    exact h _ _ .percent ⟨rfl, rfl⟩
  · rintro more rfl rfl
    exact h _ _ .plain ⟨rfl, rfl⟩
  · rintro more rfl rfl
    exact h _ _ .string ⟨rfl, rfl⟩
  · rintro more rfl rfl
    exact h _ _ .char ⟨rfl, rfl⟩

theorem readsAs_iff {cs : List Char} {ps : List Piece} : ReadsAs cs ps ↔ ps = pieces cs := by
  constructor
  · intro h
    induction h with
    | nil => rfl
    | mark hmark hrest ih => rw [pieces_mark hmark, ih]
    | letter hc hrest ih => rw [pieces_letter hc, ih]
  · rintro rfl
    fun_induction pieces cs with
    | case1 => exact .nil
    | case2 rest ih => exact .mark .percent ih
    | case3 rest ih => exact .mark .plain ih
    | case4 rest ih => exact .mark .string ih
    | case5 rest ih => exact .mark .char ih
    | case6 c rest hpercent hplain hstring hchar ih =>
      refine .letter ?_ ih
      rintro code p hmark ⟨rfl, hhead⟩
      obtain ⟨more, rfl⟩ := List.head?_eq_some_iff.mp hhead
      cases hmark with
      | percent => exact hpercent more rfl rfl
      | plain => exact hplain more rfl rfl
      | string => exact hstring more rfl rfl
      | char => exact hchar more rfl rfl

def Piece.hole? : Piece → Option Hole
  | hole h => some h
  | letter _ => none

theorem length_filterMap_hole (ps : List Piece) :
    (ps.filterMap Piece.hole?).length = holes ps := by
  induction ps with
  | nil => rfl
  | cons p ps ih =>
    cases p with
    | letter c =>
      rw [holes_letter, ← ih]
      rfl
    | hole h =>
      rw [holes_hole, ← ih]
      rfl

/-- The pieces of a template with texts in the places of its holes. -/
def assemble : List Piece → List String → List Char
  | [], _ => []
  | .letter c :: ps, texts => c :: assemble ps texts
  | .hole _ :: ps, [] => assemble ps []
  | .hole _ :: ps, text :: texts => text.toList ++ assemble ps texts

/-- The arguments spelled for the holes that they meet. -/
def spellings (style : Style) (ps : List Piece) (args : List Scalar) :
    Except Fault (List String) :=
  collect (fun a => spell style a.1 a.2) ((ps.filterMap Piece.hole?).zip args)

section Fill

variable {style : Style} {template : String} {ps : List Piece} {args : List Scalar}

theorem spellings_letter (c : Char) :
    spellings style (.letter c :: ps) args = spellings style ps args := rfl

theorem spellings_hole (h : Hole) (s : Scalar) :
    spellings style (.hole h :: ps) (s :: args) =
      spell style h s >>= fun text => spellings style ps args >>= fun texts =>
        .ok (text :: texts) := rfl

/-- Filling fails for an argument that cannot be spelled before it fails for their number. -/
theorem fill_eq (consumed : Nat) : fill style template consumed ps args =
    spellings style ps args >>= fun texts =>
      if args.length < holes ps then
        .error (.missingArgument template (consumed + args.length))
      else if holes ps < args.length then
        .error (.unusedArguments template (consumed + holes ps) (consumed + args.length))
      else .ok (assemble ps texts) := by
  induction ps generalizing consumed args with
  | nil => cases args <;> simp [fill, spellings, collect, holes, assemble]
  | cons p ps ih =>
    cases p with
    | letter c =>
      rw [fill, ih, holes_letter, spellings_letter]
      cases spellings style ps args with
      | error e => rfl
      | ok texts =>
        rw [ok_bind, ok_bind]
        split
        · rfl
        · split <;> rfl
    | hole h =>
      rw [holes_hole]
      cases args with
      | nil => simp [fill, spellings, collect]
      | cons s args =>
        rw [fill, ih, spellings_hole, List.length_cons]
        cases spell style h s with
        | error e => rfl
        | ok text =>
          cases spellings style ps args with
          | error e => rfl
          | ok texts =>
            have hmissing : consumed + 1 + args.length = consumed + (args.length + 1) := by omega
            have hunused : consumed + 1 + holes ps = consumed + (holes ps + 1) := by omega
            simp only [ok_bind, Nat.add_lt_add_iff_right, hmissing, hunused]
            split
            · rfl
            · split <;> rfl

theorem fill_of_length (h : args.length = holes ps) (consumed : Nat) :
    fill style template consumed ps args =
      spellings style ps args >>= fun texts => .ok (assemble ps texts) := by
  rw [fill_eq]
  simp [h]

theorem holes_of_fill {consumed : Nat} {cs : List Char}
    (h : fill style template consumed ps args = .ok cs) : holes ps = args.length := by
  rw [fill_eq] at h
  obtain ⟨texts, -, h⟩ := bind_eq_ok_iff.mp h
  split at h
  · cases h
  · split at h
    · cases h
    · omega

/-- As many arguments as holes: only the spelling of an argument can fail. -/
theorem failsOnly_fill {P : Fault → Prop} (hspell : ∀ h s, FailsOnly P (spell style h s))
    (h : holes ps = args.length) (consumed : Nat) :
    FailsOnly P (fill style template consumed ps args) := by
  rw [fill_of_length h.symm, spellings]
  refine FailsOnly.bind ?_ fun _ _ => failsOnly_ok _
  exact failsOnly_collect fun a _ => hspell a.1 a.2

end Fill

/-- A text with every percent sign doubled. -/
def doubled (s : String) : String :=
  String.ofList (s.toList.flatMap fun c => if c = '%' then ['%', '%'] else [c])

/-- Templates put together from doubled texts and holes. -/
inductive Whole : String → Prop
  | text (s : String) : Whole (doubled s)
  | hole (h : Hole) : Whole (String.ofList h.mark)
  | append {t u : String} (ht : Whole t) (hu : Whole u) : Whole (t ++ u)

theorem pieces_doubled_append (s : String) (rest : List Char) :
    pieces ((doubled s).toList ++ rest) = s.toList.map .letter ++ pieces rest := by
  rw [doubled, String.toList_ofList]
  induction s.toList with
  | nil => rfl
  | cons c cs ih =>
    rw [List.flatMap_cons, List.append_assoc, List.map_cons, List.cons_append, ← ih]
    split
    · rename_i hc
      rw [hc]
      exact pieces_mark .percent _
    · rename_i hc
      exact pieces_cons_of_ne hc _

theorem pieces_doubled (s : String) : pieces (doubled s).toList = s.toList.map .letter := by
  simpa [pieces] using pieces_doubled_append s []

theorem Whole.closed {t : String} (h : Whole t) : Closed t.toList := by
  induction h with
  | text s =>
    intro rest
    rw [pieces_doubled_append, pieces_doubled]
  | hole h => simpa using closed_mark h
  | append ht hu iht ihu =>
    rw [String.toList_append]
    exact iht.append ihu

theorem render_doubled (style : Style) (s : String) : render style (doubled s) [] = .ok s := by
  rw [render, pieces_doubled, fill_letters]
  simp

section Append

variable {t : String} (ht : Closed t.toList) (u : String)
include ht

theorem pieces_append : pieces (t ++ u).toList = pieces t.toList ++ pieces u.toList := by
  rw [String.toList_append, ht]

theorem countHoles_append : countHoles (t ++ u) = countHoles t + countHoles u := by
  rw [countHoles, pieces_append ht]
  exact holes_append _ _

theorem render_append (style : Style) {args others : List Scalar}
    (hargs : args.length = countHoles t) (hothers : others.length = countHoles u) :
    render style (t ++ u) (args ++ others) = (do
      let text ← render style t args
      let text' ← render style u others
      return text ++ text') := by
  have hfill := @fill_append style (t ++ u) (pieces t.toList) (pieces u.toList) args others
    hargs.symm 0
  rw [render, pieces_append ht, hfill, render, render]
  -- The fault of a template names it, but none of these has arguments missing or left over.
  rw [fill_of_length hargs, fill_of_length hothers, fill_of_length hargs, fill_of_length hothers]
  simp

end Append

/-- A template is filled only with an argument for each hole, and then the texts of the arguments
take the places of the holes, or the first argument without a text is to blame. Doubled percent
signs protect any text, and templates of such texts and holes are joined with their arguments. -/
theorem render_exact (style : Style) (t : String) (args : List Scalar) :
    (∀ text, render style t args = .ok text → args.length = countHoles t) ∧
    (∃ ps, (∀ qs, ReadsAs t.toList qs ↔ qs = ps) ∧
      countHoles t = (ps.filterMap Piece.hole?).length ∧
      (args.length = countHoles t →
        (∃ texts, List.Forall₂ (fun a text => spell style a.1 a.2 = .ok text)
            ((ps.filterMap Piece.hole?).zip args) texts ∧
          render style t args = .ok (String.ofList (assemble ps texts))) ∨
        ∃ before a behind e, (ps.filterMap Piece.hole?).zip args = before ++ a :: behind ∧
          (∀ x ∈ before, ∃ text, spell style x.1 x.2 = .ok text) ∧
          spell style a.1 a.2 = .error e ∧ render style t args = .error e)) ∧
    (∀ s, render style (doubled s) [] = .ok s) ∧
    (Whole t → ∀ u, Whole u → countHoles (t ++ u) = countHoles t + countHoles u ∧
      ∀ others, args.length = countHoles t → others.length = countHoles u →
        render style (t ++ u) (args ++ others) = (do
          let text ← render style t args
          let text' ← render style u others
          return text ++ text')) := by
  refine ⟨?_, ⟨pieces t.toList, fun qs => readsAs_iff, (length_filterMap_hole _).symm, ?_⟩,
    render_doubled style, ?_⟩
  · intro text h
    obtain ⟨cs, hcs, -⟩ := bind_eq_ok_iff.mp h
    exact (holes_of_fill hcs).symm
  · intro hlength
    rw [render, fill_of_length hlength, spellings]
    rcases collect_outcome (fun a => spell style a.1 a.2)
        (((pieces t.toList).filterMap Piece.hole?).zip args) with
      ⟨texts, htexts, hcollect⟩ | ⟨before, a, behind, e, hzip, hbefore, ha, hcollect⟩
    · exact .inl ⟨texts, htexts, by rw [hcollect]; rfl⟩
    · exact .inr ⟨before, a, behind, e, hzip, hbefore, ha, by rw [hcollect]; rfl⟩
  · intro ht u hu
    constructor
    · exact countHoles_append ht.closed u
    · intro others hargs hothers
      exact render_append ht.closed u style hargs hothers

/-- Three percent signs are a doubled one and the begin of a hole, and one at the end stands for
itself. Of two arguments that are no char the first is to blame. -/
theorem render_exact_runs :
    ReadsAs "%%%S%".toList [.letter '%', .hole .string, .letter '%'] ∧
    render Java.style "%%%S%" [⟨.string, .text "a%L"⟩] = .ok "%\"a%L\"%" ∧
    (∀ text args, render Java.style "%%%S%" args = .ok text → args.length = 1) ∧
    render Java.style "%C%C" [⟨.char, .text "ab"⟩, ⟨.char, .text ""⟩] =
      .error (.notSingleChar "ab") ∧
    render Java.style (doubled "50%" ++ "%L") [⟨.int, .int 7⟩] = .ok "50%7" := by
  refine ⟨readsAs_iff.mpr rfl, rfl, fun text args h => ?_, rfl, ?_⟩
  · exact (render_exact Java.style "%%%S%" args).1 text h
  · obtain ⟨-, -, -, hjoin⟩ := render_exact Java.style (doubled "50%") []
    obtain ⟨-, hrender⟩ := hjoin (.text "50%") "%L" (.hole .plain)
    have hall := hrender [⟨.int, .int 7⟩] rfl rfl
    rw [List.nil_append] at hall
    rw [hall]
    rfl

end Literal

end BuildConstants
