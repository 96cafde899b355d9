import Mathlib.Data.List.Basic
import Mathlib.Data.List.TakeWhile
import BuildConstants.Proofs.CommentNesting
import BuildConstants.Proofs.Emission
import BuildConstants.Proofs.HoleCounts

/-!
# Array creation without type arguments

Java creates an array with the name of its element type as it is printed, boxed and with all that
stands between angle brackets left out. In the initializer the name stands as a template reads it,
so two percent signs in a row become one.
-/

namespace BuildConstants.Java

open Literal Outcome ResolvedType

/-- A text and what is left of it without its bracketed parts; every bracket has its partner. -/
inductive Stripped : List Char → List Char → Prop
  | nil : Stripped [] []
  | keep {c : Char} (hopen : c ≠ '<') (hclose : c ≠ '>') {cs out : List Char}
      (h : Stripped cs out) : Stripped (c :: cs) (c :: out)
  | drop {inner dropped : List Char} (hinner : Stripped inner dropped) {cs out : List Char}
      (h : Stripped cs out) : Stripped ('<' :: inner ++ '>' :: cs) out

/-- The characters that stand in no brackets, behind so many open ones. -/
def outsideFrom : Nat → List Char → List Char
  | _, [] => []
  | depth, c :: cs =>
    if c = '<' then outsideFrom (depth + 1) cs
    else if c = '>' then outsideFrom (depth - 1) cs
    else if depth = 0 then c :: outsideFrom 0 cs
    else outsideFrom depth cs

/-- A text without its bracketed parts. -/
def outside (s : String) : String :=
  String.ofList (outsideFrom 0 s.toList)

def Angleless (s : String) : Prop :=
  '<' ∉ s.toList ∧ '>' ∉ s.toList

instance (s : String) : Decidable (Angleless s) :=
  inferInstanceAs (Decidable (_ ∧ _))

namespace Stripped

variable {cs ds out out' : List Char}

theorem append (h : Stripped cs out) (h' : Stripped ds out') :
    Stripped (cs ++ ds) (out ++ out') := by
  induction h with
  | nil => exact h'
  | keep hopen hclose _ ih => exact .keep hopen hclose ih
  | drop hinner _ _ ih =>
    rw [List.append_assoc, List.cons_append]
    exact .drop hinner ih

theorem self (hopen : '<' ∉ cs) (hclose : '>' ∉ cs) : Stripped cs cs := by
  induction cs with
  | nil => exact .nil
  | cons c cs ih =>
    rw [List.mem_cons, not_or] at hopen hclose
    exact .keep (Ne.symm hopen.1) (Ne.symm hclose.1) (ih hopen.2 hclose.2)

theorem of_angleless {s : String} (h : Angleless s) : Stripped s.toList s.toList :=
  self h.1 h.2

/-- Inside of brackets all is passed over, outside all is kept. -/
theorem outsideFrom_append (h : Stripped cs out) (rest : List Char) :
    outsideFrom 0 (cs ++ rest) = out ++ outsideFrom 0 rest ∧
    ∀ depth, outsideFrom (depth + 1) (cs ++ rest) = outsideFrom (depth + 1) rest := by
  induction h generalizing rest with
  | nil => exact ⟨rfl, fun _ => rfl⟩
  | keep hopen hclose _ ih =>
    constructor
    · simp [outsideFrom, hopen, hclose, (ih rest).1]
    · intro depth
      simp [outsideFrom, hopen, hclose, (ih rest).2]
  | @drop inner _ hinner cs _ h ihinner ih =>
    have hsplit : '<' :: inner ++ '>' :: cs ++ rest = '<' :: (inner ++ '>' :: (cs ++ rest)) := by
      simp
    rw [hsplit]
    constructor
    · simp [outsideFrom, (ihinner _).2, (ih rest).1]
    · intro depth
      simp [outsideFrom, (ihinner _).2, (ih rest).2]

theorem outsideFrom_eq (h : Stripped cs out) : outsideFrom 0 cs = out := by
  have hall := (h.outsideFrom_append []).1
  rwa [List.append_nil, outsideFrom, List.append_nil] at hall

theorem toList_outside {s : String} (h : Stripped s.toList out) : (outside s).toList = out := by
  rw [outside, String.toList_ofList, h.outsideFrom_eq]

theorem intercalate {names : List String} (h : ∀ s ∈ names, ∃ out, Stripped s.toList out) :
    ∃ out, Stripped (String.intercalate ", " names).toList out := by
  induction names with
  | nil => exact ⟨[], .nil⟩
  | cons s rest ih =>
    obtain ⟨⟨out, hs⟩, hrest⟩ := List.forall_mem_cons.mp h
    obtain ⟨others, hothers⟩ := ih hrest
    cases rest with
    | nil => exact ⟨out, by simpa using hs⟩
    | cons s' rest =>
      have hseparator : Stripped ", ".toList ", ".toList := of_angleless (by decide)
      refine ⟨out ++ (", ".toList ++ others), ?_⟩
      rw [String.intercalate_cons_cons, String.toList_append, String.toList_append,
        List.append_assoc]
      exact hs.append (hseparator.append hothers)

end Stripped

section Names

variable {q opening name : String} {out : List Char}

theorem outside_angleless (hq : Angleless q) : outside q = q :=
  String.toList_inj.mp (Stripped.of_angleless hq).toList_outside

theorem outside_append (hname : Stripped name.toList out) {s : String}
    (hs : Angleless s) : outside (name ++ s) = outside name ++ s := by
  apply String.toList_inj.mp
  have hall : Stripped (name ++ s).toList (out ++ s.toList) := by
    rw [String.toList_append]
    exact hname.append (.of_angleless hs)
  rw [hall.toList_outside, String.toList_append, hname.toList_outside]

theorem stripped_arguments (hopening : opening = q ++ "<") (hq : Angleless q)
    (hname : Stripped name.toList out) : Stripped (opening ++ name ++ ">").toList q.toList := by
  have harguments : Stripped ('<' :: name.toList ++ ['>']) [] := .drop hname .nil
  have hall := (Stripped.of_angleless hq).append harguments
  simpa [hopening] using hall

theorem stripped_wildcard (hname : name = q ++ "<?>") (hq : Angleless q) :
    Stripped name.toList q.toList := by
  have hwildcard : Stripped ['<', '?', '>'] [] := .drop (.keep (by decide) (by decide) .nil) .nil
  have hall := (Stripped.of_angleless hq).append hwildcard
  simpa [hname] using hall

theorem passes_of_angleless (hq : Angleless q) : ∀ c ∈ q.toList, (c != '<') = true := by
  intro c hc
  rw [bne_iff_ne]
  rintro rfl
  exact hq.1 hc

/-- The text in front of the first bracket is all that stands outside of brackets. -/
theorem beforeArguments_arguments (hopening : opening = q ++ "<") (hq : Angleless q)
    (hname : Stripped name.toList out) :
    beforeArguments (opening ++ name ++ ">") = outside (opening ++ name ++ ">") := by
  apply String.toList_inj.mp
  rw [(stripped_arguments hopening hq hname).toList_outside, beforeArguments, String.toList_ofList]
  simp [hopening, List.takeWhile_append_of_pos (passes_of_angleless hq)]

theorem beforeArguments_angleless (hq : Angleless q) : beforeArguments q = q := by
  rw [beforeArguments, List.takeWhile_eq_self_iff.mpr (passes_of_angleless hq),
    String.ofList_toList]

end Names

theorem angleless_boxedName {k : ScalarKind} {name : String} (h : boxedName k = .ok name) :
    Angleless name := by
  cases k <;> first | (obtain rfl := Except.ok.inj h; decide) | cases h

theorem angleless_name (k : ScalarKind) : Angleless k.name := by
  cases k <;> decide

mutual

/-- The brackets of a printed type have their partners. -/
theorem stripped_typeName (boxed : Bool) : ∀ t : ResolvedType, (∀ q ∈ t.classNames, Angleless q) →
    ∀ {name : String}, typeName boxed t = .ok name → ∃ out, Stripped name.toList out
  | .primitive k n, _, name, h => by
    rw [typeName] at h
    split at h
    · exact ⟨_, .of_angleless (angleless_boxedName h)⟩
    · obtain rfl := Except.ok.inj h
      exact ⟨_, .of_angleless (angleless_name k)⟩
  | .string _, _, name, h => by
    obtain rfl := Except.ok.inj h
    exact ⟨_, .of_angleless (by decide)⟩
  | .primitiveArray k _, _, name, h => by
    obtain rfl := Except.ok.inj h
    rw [String.toList_append]
    exact ⟨_, (Stripped.of_angleless (angleless_name k)).append (.of_angleless (by decide))⟩
  | .array none _, _, name, h => by cases h
  | .array (some e) _, hq, name, h => by
    obtain ⟨element, he, h⟩ := bind_eq_ok_iff.mp h
    obtain rfl := Except.ok.inj h
    obtain ⟨out, hout⟩ := stripped_typeName true e hq he
    rw [String.toList_append]
    exact ⟨_, hout.append (.of_angleless (by decide))⟩
  | .list none _, _, name, h => by
    obtain rfl := Except.ok.inj h
    exact ⟨_, stripped_wildcard (q := "java.util.List") (by decide) (by decide)⟩
  | .list (some e) _, hq, name, h => by
    obtain ⟨element, he, h⟩ := bind_eq_ok_iff.mp h
    obtain rfl := Except.ok.inj h
    obtain ⟨out, hout⟩ := stripped_typeName true e hq he
    exact ⟨_, stripped_arguments (q := "java.util.List") (by decide) (by decide) hout⟩
  | .set none _, _, name, h => by
    obtain rfl := Except.ok.inj h
    exact ⟨_, stripped_wildcard (q := "java.util.Set") (by decide) (by decide)⟩
  | .set (some e) _, hq, name, h => by
    obtain ⟨element, he, h⟩ := bind_eq_ok_iff.mp h
    obtain rfl := Except.ok.inj h
    obtain ⟨out, hout⟩ := stripped_typeName true e hq he
    exact ⟨_, stripped_arguments (q := "java.util.Set") (by decide) (by decide) hout⟩
  | .named q [] _ _, hq, name, h => by
    obtain rfl := Except.ok.inj h
    exact ⟨_, .of_angleless (hq q List.mem_cons_self)⟩
  | .named q (a :: rest) _ _, hq, name, h => by
    obtain ⟨names, hnames, h⟩ := bind_eq_ok_iff.mp h
    obtain rfl := Except.ok.inj h
    have harguments := stripped_boxedNames (a :: rest)
      (fun q' hq' => hq q' (List.mem_cons_of_mem q hq')) hnames
    obtain ⟨out, hout⟩ := Stripped.intercalate harguments
    exact ⟨_, stripped_arguments rfl (hq q List.mem_cons_self) hout⟩

theorem stripped_boxedNames : ∀ ts : List ResolvedType,
    (∀ q ∈ allClassNames ts, Angleless q) → ∀ {names : List String},
      boxedNames ts = .ok names → ∀ s ∈ names, ∃ out, Stripped s.toList out
  | [], _, names, h => by
    obtain rfl := Except.ok.inj h
    nofun
  | t :: rest, hq, names, h => by
    obtain ⟨name, hname, h⟩ := bind_eq_ok_iff.mp h
    obtain ⟨others, hothers, h⟩ := bind_eq_ok_iff.mp h
    obtain rfl := Except.ok.inj h
    exact List.forall_mem_cons.mpr
      ⟨stripped_typeName true t (fun q hm => hq q (List.mem_append_left _ hm)) hname,
        stripped_boxedNames rest (fun q hm => hq q (List.mem_append_right _ hm)) hothers⟩

end

theorem cut_eq_outside {opening q : String} (hopening : opening = q ++ "<") (hq : Angleless q)
    {x : Except Fault String} (hx : ∀ name, x = .ok name → ∃ out, Stripped name.toList out) :
    ((x >>= fun name => .ok (opening ++ name ++ ">")) >>= fun s => .ok (beforeArguments s)) =
      ((x >>= fun name => .ok (opening ++ name ++ ">")) >>= fun s => .ok (outside s)) := by
  cases x with
  | error e => rfl
  | ok name =>
    obtain ⟨out, hout⟩ := hx name rfl
    simp [beforeArguments_arguments hopening hq hout]

theorem erasure_eq_outside : ∀ t : ResolvedType, (∀ q ∈ t.classNames, Angleless q) →
    erasure t = typeName true t >>= fun name => .ok (outside name)
  | .primitive k n, _ => by
    rw [erasure, typeName, Bool.true_or, if_pos rfl]
    cases h : boxedName k with
    | error e => rfl
    | ok name => rw [ok_bind, outside_angleless (angleless_boxedName h)]
  | .string _, _ => rfl
  | .primitiveArray k _, _ => by
    have hname := Stripped.of_angleless (angleless_name k)
    rw [erasure, typeName, ok_bind, outside_append hname (by decide),
      outside_angleless (angleless_name k)]
  | .array none _, _ => rfl
  | .array (some e) _, hq => by
    rw [erasure, typeName, erasure_eq_outside e hq]
    cases h : typeName true e with
    | error e => simp only [error_bind]
    | ok name =>
      obtain ⟨out, hout⟩ := stripped_typeName true e hq h
      simp [outside_append hout (s := "[]") (by decide)]
  | .list none _, _ => rfl
  | .list (some e) _, hq =>
    cut_eq_outside (q := "java.util.List") (by decide) (by decide) fun _ h =>
      stripped_typeName true e hq h
  | .set none _, _ => rfl
  | .set (some e) _, hq =>
    cut_eq_outside (q := "java.util.Set") (by decide) (by decide) fun _ h =>
      stripped_typeName true e hq h
  | .named q [] _ _, hq => by
    have hself := hq q List.mem_cons_self
    have hname : beforeArguments q = outside q := by
      rw [beforeArguments_angleless hself, outside_angleless hself]
    exact congrArg Except.ok hname
  | .named q (a :: rest) c n, hq => by
    show (typeName false (.named q (a :: rest) c n) >>= fun s => .ok (beforeArguments s)) = _
    have hname (boxed : Bool) : typeName boxed (.named q (a :: rest) c n) =
        (boxedNames (a :: rest) >>= fun names => .ok (String.intercalate ", " names)) >>=
          fun name => .ok (q ++ "<" ++ name ++ ">") := by
      rw [typeName]
      cases boxedNames (a :: rest) <;> rfl
    rw [hname, hname]
    refine cut_eq_outside rfl (hq q List.mem_cons_self) fun name h => ?_
    obtain ⟨names, hnames, h⟩ := bind_eq_ok_iff.mp h
    obtain rfl := Except.ok.inj h
    exact Stripped.intercalate (stripped_boxedNames (a :: rest)
      (fun q' hq' => hq q' (List.mem_cons_of_mem q hq')) hnames)

/-- How an array of these elements is opened. -/
def creation (name : String) : String :=
  "new " ++ outside name ++ "[] \x7b"

/-- The element type of an array. -/
def ownElement : ResolvedType → List ResolvedType
  | .array (some e) _ => [e]
  | _ => []

mutual

/-- The element types of the arrays that a value is written with, from left to right. -/
def created (t : ResolvedType) : Tagged → List ResolvedType
  | .null => []
  | .scalar _ => ownElement t
  | .tuple items => if t.isGeneric then ownElement t ++ createdIn t.elementOrList items else []

def createdIn (t : ResolvedType) : List Tagged → List ResolvedType
  | [] => []
  | item :: rest =>
    (match item with
      | .tuple items => created t (.tuple items)
      | _ => []) ++ createdIn t rest

end

def createdElements (t : ResolvedType) : Tagged → List ResolvedType
  | .tuple items => created t (.tuple items)
  | _ => []

@[simp] theorem createdIn_eq (t : ResolvedType) (items : List Tagged) :
    createdIn t items = items.flatMap (createdElements t) := by
  induction items with
  | nil => rfl
  | cons item rest ih => cases item <;> simp [createdIn, createdElements, ih]

theorem created_of_isGeneric {t : ResolvedType} (ht : t.isGeneric = true) (items : List Tagged) :
    created t (.tuple items) =
      ownElement t ++ items.flatMap (createdElements t.elementOrList) := by
  rw [created, if_pos ht, createdIn_eq]

theorem created_of_not_isGeneric {t : ResolvedType} (ht : t.isGeneric = false)
    (items : List Tagged) : created t (.tuple items) = [] := by
  rw [created, if_neg (by simp [ht])]

theorem openings_eq_flatMap {v : Tagged} : ∀ {t : ResolvedType},
    openings style t v =
      (created t v).flatMap fun e => ownOpening style (.array (some e) false) := by
  have hown (t : ResolvedType) : ownOpening style t =
      (ownElement t).flatMap fun e => ownOpening style (.array (some e) false) := by
    cases t with
    | array e n => cases e <;> simp [ownElement, ownOpening, style, genericArray]
    | _ => rfl
  induction v using Tagged.induction with
  | null => exact rfl
  | scalar s =>
    intro t
    exact hown t
  | tuple items ih =>
    intro t
    cases ht : t.isGeneric with
    | false => rw [openings_of_not_isGeneric ht, created_of_not_isGeneric ht, List.flatMap_nil]
    | true =>
      have helement : ∀ v ∈ items, elementOpenings style t.elementOrList v =
          (createdElements t.elementOrList v).flatMap fun e =>
            ownOpening style (.array (some e) false) := by
        intro v hv
        cases v with
        | null | scalar s => rfl
        | tuple inner => exact ih _ hv
      rw [openings_of_isGeneric ht, created_of_isGeneric ht, List.flatMap_append, ← hown,
        List.flatMap_assoc, List.flatMap_congr helement]

theorem created_array (e : ResolvedType) (n : Bool) {v : Tagged} (hv : v ≠ .null) :
    ∃ rest, created (.array (some e) n) v = e :: rest := by
  cases v with
  | null => exact absurd rfl hv
  | scalar s => exact ⟨[], rfl⟩
  | tuple items => exact ⟨_, created_of_isGeneric rfl items⟩

/-- Types that have a name, with no angle brackets in the names of their classes. -/
def Clean (t : ResolvedType) : Prop :=
  hasName t = true ∧ ∀ q ∈ t.classNames, Angleless q

namespace Clean

variable {t : ResolvedType}

theorem elementOrList (h : Clean t) (ht : t.isGeneric = true) : Clean t.elementOrList := by
  have hnone : Clean (.list none false) := ⟨rfl, nofun⟩
  cases t with
  | array e n | list e n | set e n =>
    cases e with
    | none => exact hnone
    | some e => exact h
  | _ => cases ht

theorem ownElement (h : Clean t) : ∀ e ∈ ownElement t, Clean e := by
  cases t with
  | array e n =>
    cases e with
    | none => nofun
    | some e => exact List.forall_mem_singleton.mpr h
  | _ => nofun

theorem created {v : Tagged} : ∀ {t : ResolvedType}, Clean t → ∀ e ∈ created t v, Clean e := by
  induction v using Tagged.induction with
  | null => nofun
  | scalar s => exact ownElement
  | tuple items ih =>
    intro t h e he
    cases ht : t.isGeneric with
    | false =>
      rw [created_of_not_isGeneric ht] at he
      cases he
    | true =>
      rw [created_of_isGeneric ht] at he
      rcases List.mem_append.mp he with he | he
      · exact h.ownElement e he
      · obtain ⟨v, hv, he⟩ := List.mem_flatMap.mp he
        cases v with
        | null | scalar s => cases he
        | tuple inner => exact ih _ hv (h.elementOrList ht) e he

theorem ownOpening_array (h : Clean t) :
    ∃ name, typeName true t = .ok name ∧
      ownOpening style (.array (some t) false) = [creation name] := by
  obtain ⟨name, hname, -⟩ := typeName_of_hasName true t h.1
  refine ⟨name, hname, ?_⟩
  simp [ownOpening, style, genericArray, erasure_eq_outside t h.2, hname, creation]

theorem openings_eq (h : Clean t) (v : Tagged) : ∃ names,
    collect (typeName true) (Java.created t v) = .ok names ∧
      openings style t v = names.map creation := by
  have hall : ∀ es : List ResolvedType, (∀ e ∈ es, Clean e) → ∃ names,
      collect (typeName true) es = .ok names ∧
        (es.flatMap fun e => ownOpening style (.array (some e) false)) = names.map creation := by
    intro es hes
    induction es with
    | nil => exact ⟨[], rfl, rfl⟩
    | cons e es ih =>
      obtain ⟨he, hes⟩ := List.forall_mem_cons.mp hes
      obtain ⟨name, hname, hopening⟩ := he.ownOpening_array
      obtain ⟨names, hnames, hopenings⟩ := ih hes
      refine ⟨name :: names, by simp [collect, hname, hnames], ?_⟩
      rw [List.flatMap_cons, hopening, hopenings]
      rfl
  rw [openings_eq_flatMap]
  exact hall _ h.created

end Clean

section Reading

theorem length_pieces_le (cs : List Char) : (pieces cs).length ≤ cs.length := by
  induction cs using pieces.induct with
  | case1 => simp [pieces]
  | case2 rest ih | case3 rest ih | case4 rest ih | case5 rest ih =>
    simp only [pieces, List.length_cons]
    omega
  | case6 c rest _ _ _ _ ih =>
    rw [pieces]
    · simpa using ih
    all_goals assumption

/-- Letters read as they are written, save two percent signs in a row. -/
theorem letters_pieces_eq_iff {cs : List Char} (h : holes (pieces cs) = 0) :
    (pieces cs).filterMap Piece.letter? = cs ↔ ¬ ['%', '%'] <:+: cs := by
  induction cs using pieces.induct with
  | case1 => simp [pieces]
  | case2 rest ih =>
    have hpair : ['%', '%'] <:+: '%' :: '%' :: rest := ⟨[], rest, rfl⟩
    have hlength : ((pieces rest).filterMap Piece.letter?).length ≤ rest.length :=
      (List.length_filterMap_le _ _).trans (length_pieces_le rest)
    refine iff_of_false (fun heq => ?_) (not_not_intro hpair)
    have hlengths := congrArg List.length heq
    simp only [pieces, Piece.letter?, List.filterMap_cons, List.length_cons] at hlengths
    omega
  | case3 rest | case4 rest | case5 rest => simp [pieces] at h
  | case6 c rest hpercent hplain hstring hchar ih =>
    have hpieces : pieces (c :: rest) = .letter c :: pieces rest := by
      rw [pieces] <;> assumption
    have hhead : ¬ (c = '%' ∧ rest.head? = some '%') := by
      rintro ⟨rfl, hrest⟩
      obtain ⟨tail, rfl⟩ := List.head?_eq_some_iff.mp hrest
      exact hpercent tail rfl rfl
    have hrest : holes (pieces rest) = 0 := by
      rw [hpieces] at h
      simpa using h
    rw [hpieces, Text.pair_infix_cons, eq_comm (a := '%'), or_iff_right hhead, ← ih hrest]
    simp [Piece.letter?]

theorem reading_creation_iff {name : String} (h : countHoles (creation name) = 0) :
    reading (creation name) = (creation name).toList ↔ ¬ ['%', '%'] <:+: (outside name).toList := by
  have hpair : ['%', '%'] <:+: (creation name).toList ↔ ['%', '%'] <:+: (outside name).toList := by
    have hcreation : (creation name).toList =
        'n' :: 'e' :: 'w' :: ' ' :: (outside name).toList ++ ['[', ']', ' ', '\x7b'] := by
      simp [creation]
    rw [hcreation, Text.pair_infix_append (by decide)]
    simp [Text.pair_infix_cons]
  rw [← hpair]
  exact letters_pieces_eq_iff h

/-- The initializer of an array begins with its opening as a template reads it. -/
theorem prefix_initializer {l : Language} {e : Option ResolvedType} {n : Bool} {v : Tagged}
    (hv : v ≠ .null) {template : Template}
    (hformat : format l.dialect.style (.array e n) v = .ok template)
    (hcount : template.count = v.flatten.length) {o : String}
    (ho : ownOpening l.dialect.style (.array e n) = [o]) (hnone : countHoles o = 0)
    {name text : String}
    (htext : l.dialect.initializer name (.array e n) (.literal v) = .ok text) :
    reading o <+: text.toList := by
  have hjoin : ∃ b parts, l.dialect.style.brackets (.array e n) = .ok b ∧
      template = .join l.dialect.style.separator b parts := by
    cases v with
    | null => exact absurd rfl hv
    | scalar s =>
      rcases format_scalar hformat with ⟨ht, -⟩ | ⟨b, k, hb, htemplate⟩
      · cases ht
      · exact ⟨b, _, hb, htemplate⟩
    | tuple items =>
      obtain ⟨parts, b, -, hb, htemplate⟩ := format_generic rfl hformat
      exact ⟨b, parts, hb, htemplate⟩
  obtain ⟨b, parts, hb, rfl⟩ := hjoin
  have hb : l.dialect.style.genericArray e = .ok b := hb
  obtain rfl : b.opening = o := by simpa [ownOpening, hb] using ho
  rw [Language.initializer_eq_fill hformat hcount] at htext
  obtain ⟨cs, hcs, htext⟩ := bind_eq_ok_iff.mp htext
  obtain rfl := Except.ok.inj htext
  have hclosed := (l.style_opens e b hb).1
  simp only [Template.join, String.toList_append, List.append_assoc] at hcs
  rw [hclosed, pieces_eq_reading hnone] at hcs
  obtain ⟨as, bs, m, xs, ys, hxs, -, rfl⟩ := exists_fill_append hcs
  obtain rfl := eq_of_fill_letters hxs
  rw [String.toList_ofList]
  exact List.prefix_append _ _

end Reading

/-- An initializer has the openings of its arrays in order, as a template reads them. -/
theorem creations_of_initializer {t : ResolvedType} (h : Clean t) {v : Tagged} (hv : v ≠ .null)
    {name text : String} (htext : dialect.initializer name t (.literal v) = .ok text) :
    ∃ names, collect (typeName true) (created t v) = .ok names ∧
      InOrder (names.map fun name => reading (creation name)) text.toList ∧
      (∀ e n, t = .array (some e) n → ∃ name others, names = name :: others ∧
        typeName true e = .ok name ∧ reading (creation name) <+: text.toList) ∧
      ∀ name ∈ names, reading (creation name) = (creation name).toList ↔
        ¬ ['%', '%'] <:+: (outside name).toList := by
  obtain ⟨template, hformat, hcount, -⟩ := Dialect.initializer_literal_eq_ok_iff.mp htext
  obtain ⟨names, hnames, hopenings⟩ := h.openings_eq v
  -- With a hole in an opening there would be no initializer.
  have hnone : ∀ o ∈ openings style t v, countHoles o = 0 := by
    intro o ho
    by_contra hhole
    obtain ⟨fault, hfault⟩ := Language.error_of_hole (l := .java) hformat hcount ho hhole name
    cases htext.symm.trans hfault
  have hcreation : ∀ name ∈ names, countHoles (creation name) = 0 := by
    intro name hname
    apply hnone
    rw [hopenings]
    exact List.mem_map_of_mem hname
  refine ⟨names, hnames, ?_, ?_, fun name hname => reading_creation_iff (hcreation name hname)⟩
  · have horder := Language.inOrder_initializer (l := .java) hformat hcount hnone htext
    have hreadings : (openings style t v).map reading =
        names.map fun name => reading (creation name) := by
      rw [hopenings, List.map_map, Function.comp_def]
    rwa [← hreadings]
  · rintro e n rfl
    obtain ⟨rest, hcreated⟩ := created_array e n hv
    rw [hcreated] at hnames
    obtain ⟨name', others, hname, -, rfl⟩ := collect_cons_eq_ok hnames
    obtain ⟨name'', hname', hopening⟩ := Clean.ownOpening_array (t := e) h
    obtain rfl := Except.ok.inj (hname.symm.trans hname')
    exact ⟨name', others, rfl, hname, prefix_initializer (l := .java) hv hformat hcount hopening
      (hcreation name' List.mem_cons_self) htext⟩

/-- The erasure of a type is its printed name without all that stands between brackets, and the
brackets of a printed name have their partners. A constant whose type resolves to this type has
an initializer with the openings of its arrays in order, each with the name of the elements as a
template reads it; the opening of its own array comes first. The name stands as it is printed if
and only if no two percent signs follow each other. -/
theorem erasure_outside_arguments {t : ResolvedType} (hq : ∀ q ∈ t.classNames, Angleless q) :
    erasure t = (typeName true t >>= fun name => .ok (outside name)) ∧
    (∀ name, typeName true t = .ok name → Stripped name.toList (outside name).toList) ∧
    (hasName t = true → ∃ name, typeName true t = .ok name) ∧
    ∀ c classes v d, c.type.resolve classes = .ok t → c.initial = .literal v →
      dialect.emit c classes = .ok d → ∃ names, collect (typeName true) (created t v) = .ok names ∧
        InOrder (names.map fun name => reading (creation name)) d.initializer.toList ∧
        (∀ e n, t = .array (some e) n → v ≠ .null → ∃ name others, names = name :: others ∧
          typeName true e = .ok name ∧ reading (creation name) <+: d.initializer.toList) ∧
        ∀ name ∈ names, reading (creation name) = (creation name).toList ↔
          ¬ ['%', '%'] <:+: (outside name).toList := by
  refine ⟨erasure_eq_outside t hq, fun name hname => ?_, fun h => ?_, ?_⟩
  · obtain ⟨out, hout⟩ := stripped_typeName true t hq hname
    rwa [hout.toList_outside]
  · obtain ⟨name, hname, -⟩ := typeName_of_hasName true t h
    exact ⟨name, hname⟩
  · intro c classes v d hresolve hliteral hemit
    obtain ⟨name, t', text, -, hresolve', htext, rfl⟩ := Dialect.emit_eq_ok_iff.mp hemit
    obtain rfl := Except.ok.inj (hresolve.symm.trans hresolve')
    by_cases hv : v = .null
    · subst hv
      exact ⟨[], rfl, .nil _, fun _ _ _ h => absurd rfl h, nofun⟩
    have hadapt : (Initial.literal v).adapt t = t := by
      cases v <;> first | rfl | exact absurd rfl hv
    rw [hliteral, hadapt] at htext
    obtain ⟨names, hnames, horder, hfirst, hread⟩ :=
      creations_of_initializer ⟨c.type.hasName_of_resolve t hresolve, hq⟩ hv htext
    exact ⟨names, hnames, horder, fun e n ht _ => hfirst e n ht, hread⟩

/-- The arguments of a container go, with the brackets inside of them. -/
theorem erasure_outside_arguments_nested :
    erasure (.array (some (.named "m.M" [.list (some (.string false)) false,
      .primitiveArray .int false] true false)) false) =
        .ok (outside "m.M<java.util.List<String>, int[]>[]") ∧
    outside "m.M<java.util.List<String>, int[]>[]" = "m.M[]" ∧
    dialect.emit ⟨"X", ⟨"M", true, false, [⟨"List", false, false, [⟨"String", false, false, []⟩]⟩,
          ⟨"int", true, false, []⟩]⟩, .literal (.tuple [.null])⟩
        (ClassRegistry.empty.register "M" ⟨"m.M", true⟩) =
      .ok ⟨"X", .array (some (.named "m.M" [.list (some (.string false)) false,
        .primitiveArray .int false] true false)) false, "new m.M[] \x7bnull\x7d", false⟩ ∧
    ∃ name, typeName true (.named "m.M" [.list (some (.string false)) false,
        .primitiveArray .int false] true false) = .ok name ∧
      reading (creation name) <+: "new m.M[] \x7bnull\x7d".toList := by
  have hq : ∀ q ∈ (ResolvedType.array (some (.named "m.M" [.list (some (.string false)) false,
      .primitiveArray .int false] true false)) false).classNames, Angleless q := by
    decide
  have hname : typeName true (.array (some (.named "m.M" [.list (some (.string false)) false,
      .primitiveArray .int false] true false)) false) =
        .ok "m.M<java.util.List<String>, int[]>[]" := by
    rfl
  have hemitted : dialect.emit
        ⟨"X", ⟨"M", true, false, [⟨"List", false, false, [⟨"String", false, false, []⟩]⟩,
          ⟨"int", true, false, []⟩]⟩, .literal (.tuple [.null])⟩
        (ClassRegistry.empty.register "M" ⟨"m.M", true⟩) =
      .ok ⟨"X", .array (some (.named "m.M" [.list (some (.string false)) false,
        .primitiveArray .int false] true false)) false, "new m.M[] \x7bnull\x7d", false⟩ := by
    rfl
  obtain ⟨herasure, -, -, hemit⟩ := erasure_outside_arguments hq
  rw [hname] at herasure
  obtain ⟨names, -, -, hfirst, -⟩ := hemit _ _ _ _ rfl rfl hemitted
  obtain ⟨name, others, -, hprinted, hprefix⟩ := hfirst _ _ rfl (by simp)
  exact ⟨herasure, by decide, hemitted, name, hprinted, hprefix⟩

/-- Two percent signs in the name of a class: the array is created with another name than that of
its element type. -/
theorem creation_halves_percent_signs :
    TypeExpr.resolve (ClassRegistry.empty.register "B" ⟨"a%%B", false⟩) ⟨"B", true, false, []⟩ =
      .ok (.array (some (.named "a%%B" [] false false)) false) ∧
    typeName true (.named "a%%B" [] false false) = .ok "a%%B" ∧ outside "a%%B" = "a%%B" ∧
    ∃ d, dialect.emit ⟨"X", ⟨"B", true, false, []⟩, .literal (.tuple [])⟩
        (ClassRegistry.empty.register "B" ⟨"a%%B", false⟩) = .ok d ∧
      d.initializer = "new a%B[] \x7b\x7d" ∧
      ¬ (creation "a%%B").toList <+: d.initializer.toList := by
  refine ⟨rfl, rfl, rfl, _, rfl, rfl, ?_⟩
  decide

end BuildConstants.Java
