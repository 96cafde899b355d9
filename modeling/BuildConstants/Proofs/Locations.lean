import BuildConstants.FileTree.Write
import BuildConstants.Proofs.Outcome

/-!
# Locations of a file tree

Putting and erasing one location leaves every other as it was. Names lead on through the same
directories in every tree that still has them, so paths keep their targets there.
-/

namespace BuildConstants

open Outcome

section Sizes

variable {root : PathRoot} {dirs : List String} {name suffix : String}

theorem foldr_add_append (ns ms : List Nat) :
    (ns ++ ms).foldr (· + ·) 0 = ns.foldr (· + ·) 0 + ms.foldr (· + ·) 0 := by
  induction ns with
  | nil => exact (Nat.zero_add _).symm
  | cons n rest ih => rw [List.cons_append, List.foldr_cons, ih, List.foldr_cons, Nat.add_assoc]

theorem nameSize_append : nameSize (name ++ suffix) = nameSize name + nameSize suffix := by
  rw [nameSize, String.toList_append, List.map_append, foldr_add_append, nameSize, nameSize]

theorem isOverlong_of_append (h : isOverlong (name ++ suffix) = false) :
    isOverlong name = false := by
  simp only [isOverlong, nameSize_append, decide_eq_false_iff_not] at h ⊢
  omega

theorem Path.size_append_singleton :
    Path.size ⟨root, dirs ++ [name]⟩ = Path.size ⟨root, dirs⟩ + (nameSize name + 1) := by
  rw [Path.size, List.map_append, foldr_add_append, ← Nat.add_assoc]
  rfl

theorem Path.isTooLong_of_append (h : Path.isTooLong ⟨root, dirs ++ [name ++ suffix]⟩ = false) :
    Path.isTooLong ⟨root, dirs ++ [name]⟩ = false := by
  simp only [isTooLong, size_append_singleton, nameSize_append, decide_eq_false_iff_not] at h ⊢
  omega

theorem Path.isTooLong_of_child (h : Path.isTooLong ⟨root, dirs ++ [name]⟩ = false) :
    Path.isTooLong ⟨root, dirs⟩ = false := by
  simp only [isTooLong, size_append_singleton, decide_eq_false_iff_not] at h ⊢
  omega

theorem Path.parts_eq {p : Path} (h : p.name? = some name) :
    p.parts = p.parts.dropLast ++ [name] := by
  obtain ⟨front, hfront⟩ := List.getLast?_eq_some_iff.mp h
  rw [hfront, List.dropLast_concat]

end Sizes

namespace FileTree

section Nodes

variable {t : FileTree} {l m : Location} {node : FileNode}

theorem not_isPrefixOf_home (h : t.node? l ≠ some .directory) : l.isPrefixOf t.home = false := by
  rw [Bool.eq_false_iff]
  intro hl
  exact h (by rw [node?, if_pos hl])

theorem node?_erase_self (h : l.isPrefixOf t.home = false) : (t.erase l).node? l = none := by
  have hnone : ((t.erase l).nodes.find? fun e => e.1 == l) = none := by
    rw [List.find?_eq_none]
    intro e he
    simpa using (List.mem_filter.mp he).2
  rw [node?, home_erase, if_neg (by simp [h]), hnone]
  rfl

theorem erase_put_self : (t.put l node).erase l = t.erase l := by
  simp [put, erase, List.filter_filter]

theorem put_put (first : FileNode) : (t.put l first).put l node = t.put l node := by
  rw [put, erase_put_self]
  rfl

theorem erase_put_of_ne (h : m ≠ l) : (t.put l node).erase m = (t.erase m).put l node := by
  have hcomm : ((t.erase l).erase m).nodes = ((t.erase m).erase l).nodes := by
    simp only [erase, List.filter_filter]
    exact List.filter_congr fun e _ => Bool.and_comm _ _
  have hkept : (l != m) = true := by simpa using h.symm
  simp only [put, erase, List.filter_cons_of_pos, hkept] at hcomm ⊢
  rw [hcomm]

theorem erase_erase : (t.erase l).erase l = t.erase l := by
  simp [erase, List.filter_filter]

end Nodes

/-- A tree with the working directory and all the directories of another one. -/
structure Leads (t t' : FileTree) : Prop where
  home : t'.home = t.home
  kept : ∀ m, t.node? m = some .directory → t'.node? m = some .directory

theorem Leads.trans {t t' t'' : FileTree} (h : Leads t t') (h' : Leads t' t'') : Leads t t'' :=
  ⟨h'.home.trans h.home, fun m hm => h'.kept m (h.kept m hm)⟩

theorem leads_put {t : FileTree} {l : Location} (node : FileNode)
    (h : t.node? l ≠ some .directory) : Leads t (t.put l node) := by
  refine ⟨rfl, fun m hm => ?_⟩
  have hne : m ≠ l := fun hml => h (hml ▸ hm)
  rw [node?_put_of_ne t node hne, hm]

section Walking

variable {t t' : FileTree} {l m : Location} {front names : List String} {name : String} {p : Path}

theorem Leads.start_eq (h : Leads t t') : t'.start p = t.start p := by
  rw [start, start, h.home]

theorem walk_append :
    t.walk l (front ++ names) = t.walk l front >>= fun m => t.walk m names := by
  fun_induction walk t l front with
  | case1 => rfl
  | case2 l rest ih => rw [List.cons_append, walk, if_pos rfl, ih]
  | case3 l name rest hname hlong =>
    rw [List.cons_append, walk, if_neg hname, if_pos hlong]
    rfl
  | case4 l name rest hname hlong hnode ih =>
    rw [List.cons_append, walk, if_neg hname, if_neg hlong, hnode]
    exact ih
  | case5 l name rest hname hlong content hnode =>
    rw [List.cons_append, walk, if_neg hname, if_neg hlong, hnode]
    rfl
  | case6 l name rest hname hlong hnode =>
    rw [List.cons_append, walk, if_neg hname, if_neg hlong, hnode]
    rfl

/-- A single name leads on just where it names a directory. -/
theorem walk_singleton_iff (hname : name ≠ "..") :
    t.walk l [name] = .ok m ↔
      isOverlong name = false ∧ t.node? (l ++ [name]) = some .directory ∧ m = l ++ [name] := by
  rw [walk, if_neg hname]
  cases isOverlong name with
  | true => simp
  | false =>
    rcases t.node? (l ++ [name]) with _ | ⟨_ | content⟩ <;> simp [walk, eq_comm]

/-- Directories lead on in every tree that still has them. -/
theorem walk_mono (hleads : Leads t t') (h : t.walk l names = .ok m) :
    t'.walk l names = .ok m := by
  fun_induction walk t l names with
  | case1 => exact h
  | case2 l rest ih =>
    rw [walk, if_pos rfl]
    exact ih h
  | case4 l name rest hname hlong hnode ih =>
    rw [walk, if_neg hname, if_neg hlong, hleads.kept _ hnode]
    exact ih h
  | case3 | case5 | case6 => cases h

end Walking

section Targets

variable {t : FileTree} {p q : Path} {l : Location}

/-- The place of an entry is below the place of its directory. -/
theorem target_eq_entry_iff :
    t.target p = .ok (.entry l) ↔ ∃ d name, p.name? = some name ∧ name ≠ ".." ∧
      p.isTooLong = false ∧ isOverlong name = false ∧
      t.walk (t.start p) p.parts.dropLast = .ok d ∧ l = d ++ [name] := by
  unfold target
  cases p.isTooLong with
  | true => simp
  | false =>
    cases p.name? with
    | none => simp
    | some name =>
      cases t.walk (t.start p) p.parts.dropLast with
      | error e => simp
      | ok d =>
        by_cases hname : name = ".."
        · simp [hname]
        · cases hlong : isOverlong name with
          | true => simp [hname, hlong]
          | false =>
            have hplace : d ++ [name] = l ↔ l = d ++ [name] := eq_comm
            simpa [hname, hlong] using hplace

theorem target_mono {t' : FileTree} (hleads : Leads t t')
    (h : t.target p = .ok (.entry l)) : t'.target p = .ok (.entry l) := by
  obtain ⟨d, name, hlast, hname, hshort, hfits, hwalk, hl⟩ := target_eq_entry_iff.mp h
  refine target_eq_entry_iff.mpr ⟨d, name, hlast, hname, hshort, hfits, ?_, hl⟩
  rw [hleads.start_eq]
  exact walk_mono hleads hwalk

theorem target_of_walk {root : PathRoot} {dirs : List String} {name : String} {d : Location}
    (hname : name ≠ "..") (hshort : Path.isTooLong ⟨root, dirs ++ [name]⟩ = false)
    (hfits : isOverlong name = false) (h : t.walk (t.start ⟨root, dirs⟩) dirs = .ok d) :
    t.target ⟨root, dirs ++ [name]⟩ = .ok (.entry (d ++ [name])) := by
  refine target_eq_entry_iff.mpr ⟨d, name, List.getLast?_concat, hname, hshort, hfits, ?_, rfl⟩
  rw [List.dropLast_concat]
  exact h

theorem target_of_walk_above {root : PathRoot} {dirs : List String} {name : String} {d : Location}
    (hname : name = "..") (hshort : Path.isTooLong ⟨root, dirs ++ [name]⟩ = false)
    (h : t.walk (t.start ⟨root, dirs⟩) dirs = .ok d) :
    t.target ⟨root, dirs ++ [name]⟩ = .ok (.above d.dropLast) := by
  have hlast : Path.name? ⟨root, dirs ++ [name]⟩ = some name := List.getLast?_concat
  have hfront : t.walk (t.start ⟨root, dirs ++ [name]⟩) (dirs ++ [name]).dropLast = .ok d := by
    rw [List.dropLast_concat]
    exact h
  simp only [target, hshort, Bool.false_eq_true, if_false, hlast, hfront, if_pos hname]

theorem isDirectory_iff : t.isDirectory p = true ↔
    p.isTooLong = false ∧ ∃ d, t.walk (t.start p) p.parts = .ok d := by
  rw [isDirectory]
  cases t.walk (t.start p) p.parts with
  | error e => simp [Except.isOk, Except.toBool]
  | ok d => simp [Except.isOk, Except.toBool]

end Targets

end FileTree

end BuildConstants
