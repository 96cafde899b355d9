import BuildConstants.Proofs.Conformance

/-!
# Legibility

The text of a value is legible if it shows which value it is and where it ends, whatever follows
it. Between the brackets of a container the elements stay legible: behind each of them stands a
comma or the closing bracket, and no element starts with one of the two.
-/

namespace BuildConstants.Literal

open Outcome
open Template (Brackets)

/-- Characters that may stand behind a value. -/
def isStop (c : Char) : Bool :=
  c == ',' || c == ')' || c == '\x7d'

def StopFree (cs : List Char) : Prop :=
  cs.any isStop = false

instance (cs : List Char) : Decidable (StopFree cs) :=
  inferInstanceAs (Decidable (_ = false))

/-- What may stand behind a value: nothing, or a text that starts with a stop. -/
def Ends (cs : List Char) : Prop :=
  ∀ c ∈ cs.head?, isStop c = true

/-- A closing bracket stands first. -/
def Closes (cs : List Char) : Prop :=
  cs.head?.any (fun c => c == ')' || c == '\x7d') = true

instance (cs : List Char) : Decidable (Closes cs) :=
  inferInstanceAs (Decidable (_ = true))

/-- How the text of a value other than null starts: neither like null nor with a stop. -/
inductive Fresh : List Char → Prop
  | head {c : Char} (hstop : isStop c = false) (hn : c ≠ 'n') (cs : List Char) : Fresh (c :: cs)
  | new (cs : List Char) : Fresh ('n' :: 'e' :: cs)

theorem StopFree.of_forall {cs : List Char} (h : ∀ c ∈ cs, isStop c = false) : StopFree cs := by
  rw [StopFree, List.any_eq_false]
  intro c hc
  rw [h c hc]
  exact Bool.false_ne_true

theorem StopFree.append {as bs : List Char} (ha : StopFree as) (hb : StopFree bs) :
    StopFree (as ++ bs) := by
  rw [StopFree, List.any_append, ha, hb]
  rfl

theorem stopFree_cons {c : Char} {cs : List Char} (h : StopFree (c :: cs)) :
    isStop c = false ∧ StopFree cs := by
  rwa [StopFree, List.any_cons, Bool.or_eq_false_iff] at h

theorem ends_nil : Ends [] := by
  simp [Ends]

theorem ends_cons {c : Char} (h : isStop c = true) (cs : List Char) : Ends (c :: cs) := by
  simpa [Ends] using h

theorem Closes.exists_cons {cs : List Char} (h : Closes cs) :
    ∃ c tail, cs = c :: tail ∧ (c = ')' ∨ c = '\x7d') := by
  cases cs with
  | nil => cases h
  | cons c tail =>
    refine ⟨c, tail, rfl, ?_⟩
    simpa [Closes] using h

theorem Closes.append {cs : List Char} (h : Closes cs) (rest : List Char) :
    Closes (cs ++ rest) := by
  cases cs with
  | nil => cases h
  | cons c tail => exact h

theorem Closes.ends {cs : List Char} (h : Closes cs) : Ends cs := by
  obtain ⟨c, tail, rfl, rfl | rfl⟩ := h.exists_cons
  · exact ends_cons (by decide) tail
  · exact ends_cons (by decide) tail

theorem Fresh.append {cs : List Char} (h : Fresh cs) (rest : List Char) : Fresh (cs ++ rest) := by
  cases h with
  | head hstop hn cs => exact .head hstop hn (cs ++ rest)
  | new cs => exact .new (cs ++ rest)

theorem Fresh.not_ends {cs : List Char} (h : Fresh cs) : ¬ Ends cs := by
  cases h with
  | head hstop hn cs => simp [Ends, hstop]
  | new cs => simp [Ends, isStop]

theorem Fresh.ne_null {cs rest : List Char} (h : Fresh cs) : cs ≠ "null".toList ++ rest := by
  cases h with
  | head hstop hn cs => simp [hn]
  | new cs => simp

/-- Words without stops end at the first stop behind them. -/
theorem append_inj_of_ends {as bs xs ys : List Char} (ha : StopFree as) (hb : StopFree bs)
    (hx : Ends xs) (hy : Ends ys) (h : as ++ xs = bs ++ ys) : as = bs ∧ xs = ys := by
  induction as generalizing bs with
  | nil =>
    cases bs with
    | nil => exact ⟨rfl, h⟩
    | cons b bs =>
      obtain rfl : xs = b :: (bs ++ ys) := h
      have hstop : isStop b = true := hx b rfl
      rw [(stopFree_cons hb).1] at hstop
      cases hstop
  | cons a as ih =>
    cases bs with
    | nil =>
      obtain rfl : a :: (as ++ xs) = ys := h
      have hstop : isStop a = true := hy a rfl
      rw [(stopFree_cons ha).1] at hstop
      cases hstop
    | cons b bs =>
      rw [List.cons_append, List.cons_append, List.cons.injEq] at h
      obtain ⟨rfl, h⟩ := h
      obtain ⟨rfl, hrest⟩ := ih (stopFree_cons ha).2 (stopFree_cons hb).2 h
      exact ⟨rfl, hrest⟩

/-- The text of `a` tells it from all other values of a sort and shows where it ends. -/
def Legible {α : Type} (text : α → Except Fault String) (sort : α → Prop) (a : α) : Prop :=
  ∀ b, sort b → ∀ s s', text a = .ok s → text b = .ok s' → ∀ xs ys, Ends xs → Ends ys →
    s.toList ++ xs = s'.toList ++ ys → a = b ∧ xs = ys

theorem Legible.eq_of_text_eq {α : Type} {text : α → Except Fault String} {sort : α → Prop}
    {a b : α} (h : Legible text sort a) (hb : sort b) {s : String} (ha : text a = .ok s)
    (hs : text b = .ok s) : a = b :=
  (h b hb s s ha hs [] [] ends_nil ends_nil rfl).1

section Items

variable {α : Type} {text : α → Except Fault String} {sort : α → Prop}

theorem collect_cons_eq_ok {β : Type} {f : α → Except Fault β} {a : α} {rest : List α}
    {bs : List β} (h : collect f (a :: rest) = .ok bs) :
    ∃ b others, f a = .ok b ∧ collect f rest = .ok others ∧ bs = b :: others := by
  rw [collect, bind_eq_ok_iff] at h
  obtain ⟨b, hb, h⟩ := h
  obtain ⟨others, hothers, h⟩ := bind_eq_ok_iff.mp h
  exact ⟨b, others, hb, hothers, (Except.ok.inj h).symm⟩

theorem map_of_collect {β : Type} {f : α → Except Fault β} {items : List α} {bs : List β}
    (h : collect f items = .ok bs) : items.map f = bs.map .ok := by
  induction items generalizing bs with
  | nil =>
    obtain rfl := Except.ok.inj h
    rfl
  | cons a rest ih =>
    obtain ⟨b, others, hb, hothers, rfl⟩ := collect_cons_eq_ok h
    rw [List.map_cons, List.map_cons, hb, ih hothers]

theorem exists_mem_of_collect {β : Type} {f : α → Except Fault β} {items : List α} {bs : List β}
    (h : collect f items = .ok bs) {a : α} (ha : a ∈ items) : ∃ b ∈ bs, f a = .ok b := by
  have hmem := List.mem_map_of_mem (f := f) ha
  rw [map_of_collect h] at hmem
  obtain ⟨b, hb, hf⟩ := List.mem_map.mp hmem
  exact ⟨b, hb, hf.symm⟩

theorem exists_of_collect {β : Type} {f : α → Except Fault β} {items : List α} {bs : List β}
    (h : collect f items = .ok bs) {a : α} (ha : a ∈ items) : ∃ b, f a = .ok b := by
  obtain ⟨b, -, hb⟩ := exists_mem_of_collect h ha
  exact ⟨b, hb⟩

theorem exists_item_of_collect {β : Type} {f : α → Except Fault β} {items : List α} {bs : List β}
    (h : collect f items = .ok bs) {b : β} (hb : b ∈ bs) : ∃ a ∈ items, f a = .ok b := by
  have hmem : Except.ok b ∈ items.map f := by
    rw [map_of_collect h]
    exact List.mem_map_of_mem hb
  exact List.mem_map.mp hmem

theorem collect_append_cons {β : Type} {f : α → Except Fault β} {front back : List α} {a : α}
    {bs : List β} (h : collect f (front ++ a :: back) = .ok bs) :
    ∃ bs₁ b bs₂, collect f front = .ok bs₁ ∧ f a = .ok b ∧ collect f back = .ok bs₂ ∧
      bs = bs₁ ++ b :: bs₂ := by
  induction front generalizing bs with
  | nil =>
    obtain ⟨b, others, hb, hothers, rfl⟩ := collect_cons_eq_ok h
    exact ⟨[], b, others, rfl, hb, hothers, rfl⟩
  | cons a' rest ih =>
    obtain ⟨b', others, hb', hothers, rfl⟩ := collect_cons_eq_ok h
    obtain ⟨bs₁, b, bs₂, hfront, hb, hback, rfl⟩ := ih hothers
    exact ⟨b' :: bs₁, b, bs₂, by simp [collect, hb', hfront], hb, hback, rfl⟩

theorem exists_collect {P : String → Prop} {items : List α}
    (h : ∀ a ∈ items, ∃ s, text a = .ok s ∧ P s) :
    ∃ ss, collect text items = .ok ss ∧ ∀ s ∈ ss, P s := by
  induction items with
  | nil => exact ⟨[], rfl, by simp⟩
  | cons a rest ih =>
    obtain ⟨s, hs, hp⟩ := h a List.mem_cons_self
    obtain ⟨others, hothers, hps⟩ := ih fun b hb => h b (List.mem_cons_of_mem a hb)
    refine ⟨s :: others, by simp [collect, hs, hothers], ?_⟩
    intro x hx
    rcases List.mem_cons.mp hx with rfl | hx
    · exact hp
    · exact hps x hx

/-- The texts behind the first one, each behind a separator. -/
def behind (ss : List String) : List Char :=
  ss.flatMap fun s => ", ".toList ++ s.toList

theorem intercalate_toList (s : String) (ss : List String) :
    (String.intercalate ", " (s :: ss)).toList = s.toList ++ behind ss := by
  induction ss generalizing s with
  | nil => simp [behind]
  | cons t ss ih =>
    rw [String.intercalate_cons_cons, String.toList_append, String.toList_append, ih]
    simp [behind]

theorem behind_cons (s : String) (ss : List String) :
    behind (s :: ss) = ", ".toList ++ (String.intercalate ", " (s :: ss)).toList := by
  rw [intercalate_toList]
  simp [behind]

theorem ends_behind (ss : List String) {cs : List Char} (h : Closes cs) :
    Ends (behind ss ++ cs) := by
  cases ss with
  | nil => exact h.ends
  | cons s ss => exact ends_cons (by decide) _

theorem Closes.ne_behind {cs xs : List Char} (h : Closes cs) (s : String) (ss : List String) :
    cs ≠ behind (s :: ss) ++ xs := by
  obtain ⟨c, tail, rfl, rfl | rfl⟩ := h.exists_cons
  · simp [behind]
  · simp [behind]

/-- Elements behind the first one are read one after the other up to the closing bracket. -/
theorem behind_inj {items others : List α} (hitems : ∀ a ∈ items, Legible text sort a)
    (hothers : ∀ b ∈ others, sort b) {ss ss' : List String} (hs : collect text items = .ok ss)
    (hs' : collect text others = .ok ss') {closing xs ys : List Char} (hc : Closes closing)
    (h : behind ss ++ (closing ++ xs) = behind ss' ++ (closing ++ ys)) :
    items = others ∧ xs = ys := by
  induction items generalizing others ss ss' with
  | nil =>
    obtain rfl := Except.ok.inj hs
    cases others with
    | nil =>
      obtain rfl := Except.ok.inj hs'
      exact ⟨rfl, List.append_cancel_left h⟩
    | cons b others =>
      obtain ⟨s', rest', -, -, rfl⟩ := collect_cons_eq_ok hs'
      exact absurd h ((hc.append xs).ne_behind s' rest')
  | cons a items ih =>
    obtain ⟨s, rest, hsa, hrest, rfl⟩ := collect_cons_eq_ok hs
    cases others with
    | nil =>
      obtain rfl := Except.ok.inj hs'
      exact absurd h.symm ((hc.append ys).ne_behind s rest)
    | cons b others =>
      obtain ⟨s', rest', hsb, hrest', rfl⟩ := collect_cons_eq_ok hs'
      -- Behind either element stands a comma or the closing bracket, where elements end.
      simp only [behind, List.flatMap_cons, List.append_assoc] at h
      obtain ⟨rfl, h⟩ := hitems a List.mem_cons_self b (hothers b List.mem_cons_self) s s' hsa hsb
        _ _ (ends_behind rest (hc.append xs)) (ends_behind rest' (hc.append ys))
        (List.append_cancel_left h)
      obtain ⟨rfl, hxs⟩ := ih (fun c hm => hitems c (List.mem_cons_of_mem _ hm))
        (fun c hm => hothers c (List.mem_cons_of_mem _ hm)) hrest hrest' h
      exact ⟨rfl, hxs⟩

theorem intercalate_inj {items others : List α} (hitems : ∀ a ∈ items, Legible text sort a)
    (hothers : ∀ b ∈ others, sort b) {ss ss' : List String} (hs : collect text items = .ok ss)
    (hs' : collect text others = .ok ss') {closing xs ys : List Char} (hc : Closes closing)
    (hstart : ∀ s ∈ ss, ∀ tail, ¬ Ends (s.toList ++ tail))
    (hstart' : ∀ s ∈ ss', ∀ tail, ¬ Ends (s.toList ++ tail))
    (h : (String.intercalate ", " ss).toList ++ (closing ++ xs) =
      (String.intercalate ", " ss').toList ++ (closing ++ ys)) :
    items = others ∧ xs = ys := by
  cases items with
  | nil =>
    obtain rfl := Except.ok.inj hs
    cases others with
    | nil =>
      obtain rfl := Except.ok.inj hs'
      exact ⟨rfl, List.append_cancel_left (List.append_cancel_left h)⟩
    | cons b others =>
      obtain ⟨s', rest', -, -, rfl⟩ := collect_cons_eq_ok hs'
      have hends : Ends (closing ++ xs) := (hc.append xs).ends
      have h : closing ++ xs = _ := h
      rw [h, intercalate_toList, List.append_assoc] at hends
      exact absurd hends (hstart' s' List.mem_cons_self _)
  | cons a items =>
    obtain ⟨s, rest, -, -, rfl⟩ := collect_cons_eq_ok hs
    cases others with
    | nil =>
      obtain rfl := Except.ok.inj hs'
      have hends : Ends (closing ++ ys) := (hc.append ys).ends
      have h : _ = closing ++ ys := h
      rw [← h, intercalate_toList, List.append_assoc] at hends
      exact absurd hends (hstart s List.mem_cons_self _)
    | cons b others =>
      obtain ⟨s', rest', -, -, rfl⟩ := collect_cons_eq_ok hs'
      refine behind_inj hitems hothers hs hs' hc ?_
      rw [behind_cons, behind_cons, List.append_assoc, List.append_assoc, h]

end Items

/-- Brackets that no text of an element is taken for. -/
structure Template.Brackets.Delimit (b : Brackets) : Prop where
  opening : Fresh b.opening.toList
  closing : Closes b.closing.toList

/-- Scalars are legible at their kinds, and nothing else is taken for them. -/
structure Style.Distinct (style : Style) (form : ScalarKind → Form) : Prop where
  null : style.null = "null"
  separator : style.separator = ", "
  writes : ∀ {k d}, Legal k d → ∃ s, (form k).write style ⟨k, d⟩ = .ok s ∧ Fresh s.toList
  legible : ∀ {k d}, Legal k d → Legible (fun e => (form k).write style ⟨k, e⟩) (Legal k) d
  primitiveArray : ∀ k, (style.primitiveArray k).Delimit
  genericArray : ∀ {e b}, style.genericArray e = .ok b → b.Delimit
  list : style.list.Delimit
  set : style.set.Delimit

end BuildConstants.Literal

namespace BuildConstants

open Literal Outcome ResolvedType

variable {style : Style} {form : ScalarKind → Form}

theorem Literal.Style.Creates.part {t e : ResolvedType} (h : style.Creates t)
    (he : t.part? = some e) : style.Creates e := by
  rcases part?_eq_some he with ⟨k, n, rfl, rfl⟩ | ⟨ht, helement⟩
  · trivial
  · have hlist := h.elementOrList
    rw [ResolvedType.elementOrList, helement] at hlist
    exact hlist

theorem print_scalar {t : ResolvedType} {k : ScalarKind} (hk : t.scalarKind? = some k)
    (d : Datum) : print style form t (.scalar ⟨k, d⟩) = (form k).write style ⟨k, d⟩ := by
  have hform : placeForm form t ⟨k, d⟩ = form k := by
    cases t <;> cases hk <;> rfl
  have hbare (texts : List String) : enclosed style texts t = .ok (String.join texts) := by
    cases t <;> first | rfl | cases hk
  simp [print, hform, hbare]

theorem printElement_of_part {t e : ResolvedType} (he : t.part? = some e) {v : Tagged}
    (h : v ≠ .null → WellTagged e v) : printElement style form t v = print style form e v := by
  cases v with
  | null => rw [printElement, print]
  | scalar s =>
    obtain ⟨k, hk, rfl⟩ := (h (by simp)).scalarKind
    have hform : placeForm form t s = form s.kind := by
      rcases part?_eq_some he with ⟨k, n, rfl, rfl⟩ | ⟨ht, -⟩
      · obtain rfl := Option.some.inj hk
        rfl
      · cases t <;> first | rfl | cases ht
    rw [print_scalar hk, printElement, hform]
  | tuple items =>
    rcases part?_eq_some he with ⟨k, n, rfl, rfl⟩ | ⟨-, helement⟩
    · cases h (by simp) with
      | sequence he' hnull h => cases he'
    · rw [printElement, elementOrList, helement]
      rfl

theorem printItems_of_part {t e : ResolvedType} (he : t.part? = some e) {items : List Tagged}
    (h : ∀ v ∈ items, v ≠ .null → WellTagged e v) :
    printItems style form t items = collect (print style form e) items := by
  induction items with
  | nil => rfl
  | cons v rest ih =>
    rw [printItems_cons, collect, printElement_of_part he (h v List.mem_cons_self),
      ih fun w hw => h w (List.mem_cons_of_mem v hw)]

theorem Literal.Style.Distinct.enclosed_of_part (hs : style.Distinct form) {t e : ResolvedType}
    (hc : style.Creates t) (he : t.part? = some e) : ∃ b : Template.Brackets, b.Delimit ∧
      ∀ texts, enclosed style texts t = .ok (b.around ", " texts) := by
  cases t with
  | primitiveArray k n =>
    refine ⟨style.primitiveArray k, hs.primitiveArray k, fun texts => ?_⟩
    rw [enclosed, hs.separator]
  | array a n =>
    obtain ⟨b, hb, -⟩ := hc.array
    refine ⟨b, hs.genericArray hb, fun texts => ?_⟩
    simp [enclosed, hb, hs.separator]
  | list a n =>
    refine ⟨style.list, hs.list, fun texts => ?_⟩
    rw [enclosed, hs.separator]
  | set a n =>
    refine ⟨style.set, hs.set, fun texts => ?_⟩
    rw [enclosed, hs.separator]
  | primitive k n | string n | named q as c n => cases he

/-- A container is printed as its elements, printed at their own type, between brackets. -/
theorem WellTagged.print_sequence (hs : style.Distinct form) {t e : ResolvedType}
    (hc : style.Creates t) (he : t.part? = some e) : ∃ b : Template.Brackets, b.Delimit ∧
      ∀ items, (∀ v ∈ items, v ≠ .null → WellTagged e v) →
        print style form t (.tuple items) = (collect (print style form e) items >>= fun ss =>
          .ok (b.around ", " ss)) := by
  obtain ⟨b, hb, henclosed⟩ := hs.enclosed_of_part hc he
  refine ⟨b, hb, fun items h => ?_⟩
  rw [print, printItems_of_part he h]
  simp only [henclosed]

/-- The texts of elements, none of which starts where an element ends. -/
theorem WellTagged.collect_print (hs : style.Distinct form) {e : ResolvedType}
    {items : List Tagged} (h : ∀ v ∈ items, v ≠ .null →
      ∃ s, print style form e v = .ok s ∧ Fresh s.toList) :
    ∃ ss, collect (print style form e) items = .ok ss ∧
      ∀ s ∈ ss, ∀ tail, ¬ Ends (s.toList ++ tail) := by
  apply exists_collect
  intro v hv
  by_cases hn : v = .null
  · subst hn
    refine ⟨"null", by rw [print, hs.null], fun tail => ?_⟩
    simp [Ends, isStop]
  · obtain ⟨s, hprint, hfresh⟩ := h v hv hn
    exact ⟨s, hprint, fun tail => (hfresh.append tail).not_ends⟩

theorem WellTagged.prints (hs : style.Distinct form) {t : ResolvedType} {v : Tagged}
    (h : WellTagged t v) (hc : style.Creates t) :
    ∃ s, print style form t v = .ok s ∧ Fresh s.toList := by
  induction h with
  | @scalar t k hk d hd =>
    rw [print_scalar hk]
    exact hs.writes hd
  | @sequence t e he items hnull h ih =>
    obtain ⟨b, hb, hprint⟩ := print_sequence hs hc he
    obtain ⟨ss, hss, -⟩ := collect_print hs fun v hv hn => ih v hv hn (hc.part he)
    refine ⟨b.around ", " ss, by rw [hprint items h, hss]; rfl, ?_⟩
    rw [Template.Brackets.around, String.toList_append, String.toList_append]
    exact (hb.opening.append _).append _

/-- Null is told from every other value. -/
theorem WellTagged.legible_or_null (hs : style.Distinct form) {t : ResolvedType}
    (hc : style.Creates t) {v : Tagged}
    (h : v ≠ .null → Legible (print style form t) (WellTagged t) v ∧ WellTagged t v) :
    Legible (print style form t) (fun w => w ≠ .null → WellTagged t w) v := by
  intro w hw s s' hv hw' xs ys hx hy heq
  have hnull {u : Tagged} {s : String} (hu : u = .null) (hprint : print style form t u = .ok s) :
      s = "null" := by
    rw [hu, print, hs.null] at hprint
    exact (Except.ok.inj hprint).symm
  have hfresh {u : Tagged} {s : String} (hu : WellTagged t u)
      (hprint : print style form t u = .ok s) : Fresh s.toList := by
    obtain ⟨s', hprint', hfresh⟩ := hu.prints hs hc
    obtain rfl := Except.ok.inj (hprint.symm.trans hprint')
    exact hfresh
  by_cases hvn : v = .null
  · obtain rfl := hnull hvn hv
    by_cases hwn : w = .null
    · obtain rfl := hnull hwn hw'
      exact ⟨hvn.trans hwn.symm, List.append_cancel_left heq⟩
    · exact absurd heq.symm ((hfresh (hw hwn) hw').append ys).ne_null
  · obtain ⟨hlegible, hwell⟩ := h hvn
    by_cases hwn : w = .null
    · obtain rfl := hnull hwn hw'
      exact absurd heq ((hfresh hwell hv).append xs).ne_null
    · exact hlegible w (hw hwn) s s' hv hw' xs ys hx hy heq

/-- The text of a value that is tagged well shows the value and where it ends. -/
theorem WellTagged.legible (hs : style.Distinct form) {t : ResolvedType} {v : Tagged}
    (h : WellTagged t v) (hc : style.Creates t) :
    Legible (print style form t) (WellTagged t) v := by
  induction h with
  | @scalar t k hk d hd =>
    intro w hw s s' hs' hsw xs ys hx hy heq
    cases hw with
    | @scalar _ k' hk' d' hd' =>
      obtain rfl := Option.some.inj (hk.symm.trans hk')
      rw [print_scalar hk] at hs' hsw
      obtain ⟨rfl, hrest⟩ := hs.legible hd d' hd' s s' hs' hsw xs ys hx hy heq
      exact ⟨rfl, hrest⟩
    | sequence he hnull h =>
      rw [part?_of_scalarKind hk] at he
      cases he
  | @sequence t e he items hnull h ih =>
    intro w hw s s' hsv hsw xs ys hx hy heq
    cases hw with
    | scalar hk hd =>
      rw [part?_of_scalarKind hk] at he
      cases he
    | @sequence _ e' he' others hnull' h' =>
      obtain rfl := Option.some.inj (he.symm.trans he')
      -- Both values have the type of the container, so their brackets are the same.
      have hpart := hc.part he
      obtain ⟨b, hb, hprint⟩ := print_sequence hs hc he
      obtain ⟨ss, hss, hstart⟩ := collect_print hs fun v hv hn => (h v hv hn).prints hs hpart
      obtain ⟨ss', hss', hstart'⟩ := collect_print hs fun v hv hn => (h' v hv hn).prints hs hpart
      rw [hprint items h, hss] at hsv
      rw [hprint others h', hss'] at hsw
      obtain rfl := Except.ok.inj hsv
      obtain rfl := Except.ok.inj hsw
      have hitems : ∀ v ∈ items,
          Legible (print style form e) (fun w => w ≠ .null → WellTagged e w) v := fun v hv =>
        legible_or_null hs hpart fun hn => ⟨ih v hv hn hpart, h v hv hn⟩
      simp only [Template.Brackets.around, String.toList_append, List.append_assoc] at heq
      obtain ⟨rfl, hrest⟩ := intercalate_inj hitems h' hss hss' hb.closing hstart hstart'
        (List.append_cancel_left heq)
      exact ⟨rfl, hrest⟩

end BuildConstants
