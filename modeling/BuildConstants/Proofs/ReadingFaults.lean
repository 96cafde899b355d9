import BuildConstants.Proofs.Loading
import BuildConstants.Proofs.Tagging

/-!
# Faults of reading

Reading a request fails with problems of configuration values and, in one case, with a number: an
integer beyond all doubles is tagged where a floating number is declared.
-/

namespace BuildConstants

namespace Outcome

variable {ε α β : Type} {x : Except ε α}

theorem bind_eq_error_iff {f : α → Except ε β} {e : ε} :
    (x >>= f) = .error e ↔ x = .error e ∨ ∃ a, x = .ok a ∧ f a = .error e := by
  cases x with
  | error e' => simp
  | ok a => simp

end Outcome

open Outcome

/-- Problems of configuration values. -/
def Fault.IsConfig (e : Fault) : Prop :=
  ∃ place problem, e = .config place problem

/-- What a reader may find wrong: the value, or keys that it cannot bring into an order. -/
def Fault.IsReading (e : Fault) : Prop :=
  e.IsConfig ∨ ∃ left right, e = .incomparable left right

theorem Fault.IsReading.config (place : List String) (problem : ConfigProblem) :
    Fault.IsReading (.config place problem) :=
  .inl ⟨place, problem, rfl⟩

namespace Reader

/-- A reader that fails as readers do. -/
def Tame (read : Reader) : Prop :=
  ∀ place d, FailsOnly Fault.IsReading (read place d)

theorem failsOnly_mismatch {α : Type} (place : List String) (wanted : String) (d : Datum) :
    FailsOnly Fault.IsReading (mismatch place wanted d : Except Fault α) :=
  failsOnly_error (.config _ _)

theorem tame_text : Tame text := by
  intro place d
  unfold text
  split
  · exact failsOnly_ok _
  · exact failsOnly_ok _
  · exact failsOnly_mismatch _ _ _
  · exact failsOnly_mismatch _ _ _
  · exact failsOnly_mismatch _ _ _
  · exact failsOnly_ok _

theorem tame_integer : Tame integer := by
  intro place d
  unfold integer
  split
  · exact failsOnly_ok _
  · exact failsOnly_mismatch _ _ _

theorem tame_double : Tame double := by
  intro place d
  unfold double
  split
  · exact failsOnly_ok _
  · exact failsOnly_mismatch _ _ _

theorem tame_boolean : Tame boolean := by
  intro place d
  unfold boolean
  split
  · exact failsOnly_ok _
  · exact failsOnly_mismatch _ _ _

theorem tame_oneOf (choices : List Datum) : Tame (oneOf choices) := by
  intro place d
  unfold oneOf
  split
  · exact failsOnly_ok _
  · exact failsOnly_error (.config _ _)

theorem tame_member (e : Enumeration) : Tame (member e) := by
  intro place d
  unfold member
  extract_lets found
  cases found with
  | some m => exact failsOnly_ok _
  | none => exact failsOnly_error (.config _ _)

theorem tame_items : Tame items := by
  intro place d
  unfold items
  split
  · exact failsOnly_ok _
  · exact failsOnly_error (.config _ _)

theorem tame_pairs : Tame pairs := by
  intro place d
  unfold pairs
  split
  · exact failsOnly_ok _
  · split
    · exact failsOnly_ok _
    · exact failsOnly_error (.config _ _)

theorem tame_path : Tame path := by
  intro place d
  unfold path
  split
  · exact failsOnly_ok _
  · exact failsOnly_ok _
  · exact failsOnly_ok _
  · exact failsOnly_error (.config _ _)

variable {read readKey readValue : Reader}

theorem failsOnly_elements (h : Tame read) (place : List String) (i : Nat) (ds : List Datum) :
    FailsOnly Fault.IsReading (elements read place i ds) := by
  induction ds generalizing i with
  | nil => exact failsOnly_ok _
  | cons d rest ih =>
    exact (h _ d).bind fun _ _ => (ih (i + 1)).bind fun _ _ => failsOnly_ok _

theorem tame_list (h : Tame read) : Tame (list read) := by
  intro place d
  unfold list
  split
  · exact (failsOnly_elements h _ _ _).bind fun _ _ => failsOnly_ok _
  · exact failsOnly_mismatch _ _ _

theorem failsOnly_entries (hk : Tame readKey) (hv : Tame readValue) (place : List String)
    (done es : List (Datum × Datum)) :
    FailsOnly Fault.IsReading (entries readKey readValue place done es) := by
  induction es generalizing done with
  | nil => exact failsOnly_ok _
  | cons e rest ih =>
    exact (hk _ e.1).bind fun _ _ => (hv _ e.2).bind fun _ _ => ih _

theorem tame_map (hk : Tame readKey) (hv : Tame readValue) : Tame (map readKey readValue) := by
  intro place d
  unfold map
  split
  · exact (failsOnly_entries hk hv _ _ _).bind fun _ _ => failsOnly_ok _
  · exact failsOnly_mismatch _ _ _

theorem failsOnly_refuseUnknown (place names : List String) (es : List (Datum × Datum)) :
    FailsOnly Fault.IsReading (refuseUnknown place names es) := by
  unfold refuseUnknown
  split
  · exact failsOnly_ok _
  · split
    · exact failsOnly_error (.config _ _)
    · exact failsOnly_error (.inr ⟨_, _, rfl⟩)

end Reader

namespace Schema

open Reader

mutual

theorem tame_read : ∀ s : Schema, Tame s.read
  | .any => fun _ _ => failsOnly_ok _
  | .text => tame_text
  | .integer => tame_integer
  | .double => tame_double
  | .boolean => tame_boolean
  | .oneOf choices => tame_oneOf choices
  | .member e => tame_member e
  | .optional s => by
    intro place d
    simp only [read]
    split
    · exact failsOnly_ok _
    · exact tame_read s _ _
  | .either first second => by
    intro place d
    simp only [read]
    split
    · exact failsOnly_ok _
    · exact tame_read second _ _
  | .list element => tame_list (tame_read element)
  | .map key value => tame_map (tame_read key) (tame_read value)
  | .items => tame_items
  | .entries => tame_pairs
  | .path => tame_path
  | .record name fields => by
    intro place d
    simp only [read]
    split
    · exact (failsOnly_refuseUnknown _ _ _).bind fun _ _ =>
        (failsOnly_readFields fields _ _).bind fun _ _ => failsOnly_ok _
    · exact failsOnly_error (.config _ _)

theorem failsOnly_readFields : ∀ (fields : List (String × Schema × Option Datum))
    (place : List String) (es : List (Datum × Datum)),
    FailsOnly Fault.IsReading (readFields fields place es)
  | [], _, _ => failsOnly_ok _
  | (name, schema, default) :: rest, place, es => by
    have hrest := failsOnly_readFields rest place es
    unfold readFields
    split
    · exact (tame_read schema _ _).bind fun _ _ => hrest.bind fun _ _ => failsOnly_ok _
    · exact hrest.bind fun _ _ => failsOnly_ok _
    · exact failsOnly_error (.config _ _)

end

/-- A record without an order of its keys is a problem of the record. -/
theorem failsOnly_build (schema : Schema) (name : String) (place : List String) (d : Datum) :
    FailsOnly Fault.IsConfig (schema.build name place d) := by
  intro e he
  unfold build at he
  split at he
  · obtain rfl := Except.error.inj he
    exact ⟨_, _, rfl⟩
  · rename_i hread
    rcases schema.tame_read place d e he with hconfig | ⟨left, right, rfl⟩
    · exact hconfig
    · exact absurd he (hread left right)

end Schema

namespace TypeExpr

theorem failsOnly_parseAt (place : List String) (s : String) :
    FailsOnly Fault.IsConfig (parseAt place s) := by
  unfold parseAt
  split
  · exact failsOnly_ok _
  · exact failsOnly_error ⟨_, _, rfl⟩

mutual

theorem failsOnly_read : ∀ (d : Datum) (place : List String),
    FailsOnly Fault.IsConfig (read place d)
  | .text s, place => failsOnly_parseAt place s
  | .member m, place => failsOnly_parseAt place m.name
  | .map entries, _ =>
    (Schema.failsOnly_build _ _ _ _).bind fun _ _ =>
      (failsOnly_readArgumentEntry entries _).bind fun _ _ => failsOnly_ok _
  | .null, _ | .bool _, _ | .int _, _ | .float _, _ | .bytes _, _ | .date .., _ | .path _, _
  | .list _, _ | .tuple _, _ | .set _, _ | .frozenSet _, _ | .scalar .., _ | .record .., _
  | .object .., _ => failsOnly_error ⟨_, _, rfl⟩

theorem failsOnly_readArgumentEntry : ∀ (entries : List (Datum × Datum)) (place : List String),
    FailsOnly Fault.IsConfig (readArgumentEntry place entries)
  | [], _ => failsOnly_ok _
  | (k, .list items) :: rest, place => by
    unfold readArgumentEntry
    split
    · exact failsOnly_readAll items place 0
    · exact failsOnly_readArgumentEntry rest place
  | (_, .null) :: rest, place | (_, .bool _) :: rest, place | (_, .int _) :: rest, place
  | (_, .float _) :: rest, place | (_, .text _) :: rest, place | (_, .bytes _) :: rest, place
  | (_, .date ..) :: rest, place | (_, .member _) :: rest, place | (_, .path _) :: rest, place
  | (_, .tuple _) :: rest, place | (_, .set _) :: rest, place | (_, .frozenSet _) :: rest, place
  | (_, .map _) :: rest, place | (_, .scalar ..) :: rest, place | (_, .record ..) :: rest, place
  | (_, .object ..) :: rest, place => failsOnly_readArgumentEntry rest place

theorem failsOnly_readAll : ∀ (ds : List Datum) (place : List String) (i : Nat),
    FailsOnly Fault.IsConfig (readAll place i ds)
  | [], _, _ => failsOnly_ok _
  | d :: rest, place, i =>
    (failsOnly_read d _).bind fun _ _ =>
      (failsOnly_readAll rest place (i + 1)).bind fun _ _ => failsOnly_ok _

end

end TypeExpr

namespace ClassRegistry

theorem failsOnly_readEntry (place : List String) (d : Datum) :
    FailsOnly Fault.IsConfig (readEntry place d) := by
  unfold readEntry
  split
  · exact failsOnly_ok _
  · exact failsOnly_ok _
  · exact (Schema.failsOnly_build _ _ _ _).bind fun _ _ => failsOnly_ok _

theorem failsOnly_read (r : ClassRegistry) (es : List (Datum × Datum)) :
    FailsOnly Fault.IsConfig (r.read es) := by
  induction es generalizing r with
  | nil => exact failsOnly_ok _
  | cons e rest ih => exact (failsOnly_readEntry _ e.2).bind fun _ _ => ih _

end ClassRegistry

/-- An integer beyond all doubles stands where a floating number is declared. -/
inductive Datum.Overflows : Option TypeExpr → Datum → Prop
  | integer {declared : Option TypeExpr} {kind : ScalarKind} {n : Int}
      (hkind : declared.bind (·.scalarKind?) = some kind) (hfloating : kind.isFloating = true)
      (hn : Number.Binary64.ofInt? n = none) : Overflows declared (.int n)
  | element {declared : Option TypeExpr} {d e : Datum} {items : List Datum}
      (hd : d.elements? = some items) (he : e ∈ items)
      (h : Overflows (declared.bind (·.element?)) e) : Overflows declared d

theorem Datum.elementInduction {P : Datum → Prop}
    (sequence : ∀ d items, d.elements? = some items → (∀ e ∈ items, P e) → P d)
    (single : ∀ d, d.elements? = none → P d) : ∀ d, P d
  | .list items => sequence _ items rfl fun e _ => elementInduction sequence single e
  | .tuple items => sequence _ items rfl fun e _ => elementInduction sequence single e
  | .set items => sequence _ items rfl fun e _ => elementInduction sequence single e
  | .frozenSet items => sequence _ items rfl fun e _ => elementInduction sequence single e
  | .null => single _ rfl
  | .bool _ => single _ rfl
  | .int _ => single _ rfl
  | .float _ => single _ rfl
  | .text _ => single _ rfl
  | .bytes _ => single _ rfl
  | .date .. => single _ rfl
  | .member _ => single _ rfl
  | .path _ => single _ rfl
  | .map _ => single _ rfl
  | .scalar .. => single _ rfl
  | .record .. => single _ rfl
  | .object .. => single _ rfl

theorem Scalar.ofInt_eq_error_iff {hint : Option ScalarKind} {n : Int} {e : Fault} :
    Scalar.ofInt hint n = .error e ↔ e = .number .tooLarge ∧
      ∃ kind, hint = some kind ∧ kind.isFloating = true ∧ Number.Binary64.ofInt? n = none := by
  cases hint with
  | none => simp [Scalar.ofInt]
  | some kind =>
    cases kind with
    | float | double =>
      cases hn : Number.Binary64.ofInt? n with
      | none =>
        simp [Scalar.ofInt, hn, ScalarKind.isIntegral, ScalarKind.width?, ScalarKind.isFloating]
        exact eq_comm
      | some x => simp [Scalar.ofInt, hn, ScalarKind.isIntegral, ScalarKind.width?,
          ScalarKind.isFloating]
    | boolean | byte | short | char | int | long | string | other =>
      simp [Scalar.ofInt, ScalarKind.isIntegral, ScalarKind.width?, ScalarKind.isFloating]

namespace Tagged

variable {declared : Option TypeExpr} {d : Datum} {items : List Datum} {e : Fault}

theorem sequenceAll_eq_error {rs : List (Except Fault Tagged)}
    (h : sequenceAll rs = .error e) : .error e ∈ rs := by
  induction rs with
  | nil => cases h
  | cons r rest ih =>
    rw [sequenceAll] at h
    rcases bind_eq_error_iff.mp h with h | ⟨t, -, h⟩
    · exact h ▸ List.mem_cons_self
    · rcases bind_eq_error_iff.mp h with h | ⟨ts, -, h⟩
      · exact List.mem_cons_of_mem r (ih h)
      · cases h

theorem exists_error_of_sequence (hd : d.elements? = some items)
    (h : ofDatum declared d = .error e) :
    ∃ x ∈ items, ofDatum (declared.bind (·.element?)) x = .error e := by
  have hitems : sequenceAll (items.map (ofDatum (declared.bind (·.element?)))) = .error e ∨ 
      ∃ le, sequenceAll (((outcomes (declared.bind (·.element?)) items).mergeSort le).map (·.2)) =
        .error e := by
    cases d with
    | list others | tuple others =>
      obtain rfl := Option.some.inj hd
      rcases bind_eq_error_iff.mp h with h | ⟨vs, -, h⟩
      · exact .inl ((ofItems_eq_sequenceAll _ _).symm.trans h)
      · cases h
    | set others | frozenSet others =>
      obtain rfl := Option.some.inj hd
      rcases bind_eq_error_iff.mp h with h | ⟨vs, -, h⟩
      · exact .inr ⟨_, h⟩
      · cases h
    | null | bool b | int n | float x | text s | bytes octets | date y m d | member m | path s
    | map entries | scalar k v | record name fields | object sort form shown => cases hd
  rcases hitems with h | ⟨le, h⟩
  · obtain ⟨x, hx, hxe⟩ := List.mem_map.mp (sequenceAll_eq_error h)
    exact ⟨x, hx, hxe⟩
  · obtain ⟨p, hp, hpe⟩ := List.mem_map.mp (sequenceAll_eq_error h)
    rw [(List.mergeSort_perm _ _).mem_iff, outcomes_eq_map] at hp
    obtain ⟨x, hx, rfl⟩ := List.mem_map.mp hp
    exact ⟨x, hx, hpe⟩

theorem overflows_of_error (h : ofDatum declared d = .error e) :
    e = .number .tooLarge ∧ d.Overflows declared := by
  induction d using Datum.elementInduction generalizing declared with
  | sequence d items hd ih =>
    obtain ⟨x, hx, hxe⟩ := exists_error_of_sequence hd h
    exact (ih x hx hxe).imp_right (.element hd hx)
  | single d hd =>
    cases d with
    | int n =>
      rcases bind_eq_error_iff.mp h with h | ⟨s, -, h⟩
      · obtain ⟨he, kind, hkind, hfloating, hn⟩ := Scalar.ofInt_eq_error_iff.mp h
        exact ⟨he, .integer hkind hfloating hn⟩
      · cases h
    | list items | tuple items | set items | frozenSet items => cases hd
    | null | bool b | float x | text s | bytes octets | date y m d | member m | path s
    | map entries | scalar k v | record name fields | object sort form shown => cases h

theorem error_of_overflows (h : d.Overflows declared) :
    ofDatum declared d = .error (.number .tooLarge) := by
  induction h with
  | integer hkind hfloating hn =>
    refine bind_eq_error_iff.mpr (.inl ?_)
    exact Scalar.ofInt_eq_error_iff.mpr ⟨rfl, _, hkind, hfloating, hn⟩
  | @element declared d x items hd hx h ih =>
    cases hv : ofDatum declared d with
    | error e => rw [(overflows_of_error hv).1]
    | ok v =>
      obtain ⟨vs, rfl, harise⟩ := ofDatum_sequence hd hv
      obtain ⟨w, -, hw⟩ := harise.exists_value hx
      rw [ih] at hw
      cases hw

/-- Tagging fails just with an integer beyond all doubles where a floating number is declared. -/
theorem ofDatum_eq_error_iff :
    ofDatum declared d = .error e ↔ e = .number .tooLarge ∧ d.Overflows declared :=
  ⟨overflows_of_error, fun ⟨he, h⟩ => he ▸ error_of_overflows h⟩

end Tagged

namespace Constant

/-- A constant without an expression whose value overflows at its declared type. -/
def Overflows (place : List String) (d : Datum) : Prop :=
  ∃ form type, Schema.constant.build "FieldCfg" place d = .ok form ∧
    TypeExpr.read (place ++ ["type"]) (form.recordField "type") = .ok type ∧
    form.optionalTextField "expression" = none ∧
    (form.recordField "value").Overflows (some type)

theorem fault_of_read {place : List String} {d : Datum} {e : Fault} (h : read place d = .error e) :
    e.IsConfig ∨ e = .number .tooLarge ∧ Overflows place d := by
  rcases bind_eq_error_iff.mp h with h | ⟨form, hform, h⟩
  · exact .inl (Schema.failsOnly_build _ _ _ _ e h)
  rcases bind_eq_error_iff.mp h with h | ⟨type, htype, h⟩
  · exact .inl (TypeExpr.failsOnly_read _ _ e h)
  split at h
  · cases h
  · obtain rfl := Except.error.inj h
    exact .inl ⟨_, _, rfl⟩
  · rename_i hexpression
    rcases bind_eq_error_iff.mp h with h | ⟨v, -, h⟩
    · obtain ⟨he, hoverflows⟩ := Tagged.ofDatum_eq_error_iff.mp h
      exact .inr ⟨he, form, type, hform, htype, hexpression, hoverflows⟩
    · cases h

theorem read_of_overflows {place : List String} {d : Datum} (h : Overflows place d) :
    read place d = .error (.number .tooLarge) := by
  obtain ⟨form, type, hform, htype, hexpression, hoverflows⟩ := h
  rw [read, hform, ok_bind, htype, ok_bind]
  simp only [hexpression, ofDatum, Tagged.error_of_overflows hoverflows, error_bind]

/-- The first constant that cannot be read overflows. -/
inductive OverflowsIn : Nat → List Datum → Prop
  | here {i : Nat} {d : Datum} {rest : List Datum} (h : Overflows ["fields", Nat.repr i] d) :
      OverflowsIn i (d :: rest)
  | later {i : Nat} {d : Datum} {c : Constant} {rest : List Datum}
      (hd : read ["fields", Nat.repr i] d = .ok c) (h : OverflowsIn (i + 1) rest) :
      OverflowsIn i (d :: rest)

theorem fault_of_readAll {i : Nat} {ds : List Datum} {e : Fault} (h : readAll i ds = .error e) :
    e.IsConfig ∨ e = .number .tooLarge ∧ OverflowsIn i ds := by
  induction ds generalizing i with
  | nil => cases h
  | cons d rest ih =>
    rcases bind_eq_error_iff.mp h with h | ⟨c, hc, h⟩
    · exact (fault_of_read h).imp_right (And.imp_right .here)
    · rcases bind_eq_error_iff.mp h with h | ⟨cs, -, h⟩
      · exact (ih h).imp_right (And.imp_right (.later hc))
      · cases h

theorem readAll_of_overflowsIn {i : Nat} {ds : List Datum} (h : OverflowsIn i ds) :
    readAll i ds = .error (.number .tooLarge) := by
  induction h with
  | here h => rw [readAll, read_of_overflows h, error_bind]
  | later hd h ih => rw [readAll, hd, ok_bind, ih, error_bind]

end Constant

namespace Request

/-- Reading the constants of a mapping gets to one that overflows. -/
def Overflows (raw : Datum) (override : Option String) : Prop :=
  ∃ form language, Schema.request.build "RequestCfg" [] raw = .ok form ∧
    chooseLanguage form override = .ok language ∧
    Constant.OverflowsIn 0 (form.listField "fields")

theorem failsOnly_chooseLanguage (form : Datum) (override : Option String) :
    FailsOnly Fault.IsConfig (chooseLanguage form override) := by
  cases override with
  | none => exact failsOnly_ok _
  | some s => exact (Schema.failsOnly_build _ _ _ _).bind fun _ _ => failsOnly_ok _

variable {raw : Datum} {baseDir : Path} {outputDir : Option Path} {override : Option String}

theorem fault_of_ofDatum {e : Fault} (h : ofDatum raw baseDir outputDir override = .error e) :
    e.IsConfig ∨ e = .number .tooLarge ∧ Overflows raw override := by
  rcases bind_eq_error_iff.mp h with h | ⟨form, hform, h⟩
  · exact .inl (Schema.failsOnly_build _ _ _ _ e h)
  rcases bind_eq_error_iff.mp h with h | ⟨language, hlanguage, h⟩
  · exact .inl (failsOnly_chooseLanguage _ _ e h)
  rcases bind_eq_error_iff.mp h with h | ⟨constants, -, h⟩
  · exact (Constant.fault_of_readAll h).imp_right
      (And.imp_right fun hin => ⟨form, language, hform, hlanguage, hin⟩)
  rcases bind_eq_error_iff.mp h with h | ⟨classes, -, h⟩
  · exact .inl (ClassRegistry.failsOnly_read _ _ e h)
  · cases h

theorem ofDatum_of_overflows (h : Overflows raw override) :
    ofDatum raw baseDir outputDir override = .error (.number .tooLarge) := by
  obtain ⟨form, language, hform, hlanguage, hin⟩ := h
  rw [ofDatum, hform, ok_bind, hlanguage, ok_bind, Constant.readAll_of_overflowsIn hin, error_bind]

end Request

end BuildConstants
