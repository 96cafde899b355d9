import BuildConstants.Proofs.Locations

/-!
# What writing a file leaves

Writing a file makes the directories that it lies in, takes away the temporary sibling and puts the
file in its place; every other location holds what it held. Writing the same file again changes
nothing at all.
-/

namespace BuildConstants.FileTree

open Outcome

/-- A tree that has grown on the way along some names: new are directories only, and each of them
is where the first of the names lead. -/
structure Grown (t t' : FileTree) (l : Location) (names : List String) : Prop where
  home : t'.home = t.home
  node : ∀ m, t'.node? m = t.node? m ∨ t.node? m = none ∧ t'.node? m = some .directory ∧
    ∃ front, front <+: names ∧ t'.walk l front = .ok m

namespace Grown

variable {t t' t'' : FileTree} {l m : Location} {names more : List String} {node : FileNode}

theorem refl (t : FileTree) (l : Location) (names : List String) : Grown t t l names :=
  ⟨rfl, fun _ => .inl rfl⟩

theorem kept (h : Grown t t' l names) (hm : t.node? m = some node) :
    t'.node? m = some node := by
  rcases h.node m with hsame | ⟨hnone, -⟩
  · rw [hsame, hm]
  · rw [hnone] at hm
    cases hm

theorem leads (h : Grown t t' l names) : Leads t t' :=
  ⟨h.home, fun _ => h.kept⟩

theorem trans (h : Grown t t' l names) (h' : Grown t' t'' l names) : Grown t t'' l names := by
  refine ⟨h'.home.trans h.home, fun m => ?_⟩
  rcases h.node m with hsame | ⟨hnone, hdir, front, hfront, hwalk⟩
  · rw [← hsame]
    exact h'.node m
  · exact .inr ⟨hnone, h'.kept hdir, front, hfront, walk_mono h'.leads hwalk⟩

theorem mono (h : Grown t t' l names) (hmore : names <+: more) : Grown t t' l more := by
  refine ⟨h.home, fun m => (h.node m).imp_right ?_⟩
  rintro ⟨hnone, hdir, front, hfront, hwalk⟩
  exact ⟨hnone, hdir, front, hfront.trans hmore, hwalk⟩

end Grown

section Directories

variable {t t' : FileTree} {p : Path}

theorem Grown.of_makeDirectory (h : t.makeDirectory p = .ok t') :
    Grown t t' (t.start p) p.parts ∧ ∃ d, t'.walk (t.start p) p.parts = .ok d := by
  unfold makeDirectory at h
  split at h
  · cases h
  · cases h
  · rename_i l htarget
    split at h
    · cases h
    · rename_i hnone
      cases h
      obtain ⟨d, name, hlast, hname, -, hfits, hwalk, rfl⟩ := target_eq_entry_iff.mp htarget
      have hdir : t.node? (d ++ [name]) ≠ some .directory := by
        rw [hnone]
        nofun
      have hself := t.node?_put_self .directory (not_isPrefixOf_home hdir)
      have hend : (t.put (d ++ [name]) .directory).walk (t.start p) p.parts =
          .ok (d ++ [name]) := by
        rw [Path.parts_eq hlast, walk_append, walk_mono (leads_put .directory hdir) hwalk]
        exact (walk_singleton_iff hname).mpr ⟨hfits, hself, rfl⟩
      refine ⟨⟨rfl, fun m => ?_⟩, _, hend⟩
      by_cases hl : m = d ++ [name]
      · subst hl
        exact .inr ⟨hnone, hself, p.parts, List.prefix_refl _, hend⟩
      · exact .inl (t.node?_put_of_ne _ hl)

theorem walk_of_unlessDirectory {e : SystemError} (h : t.unlessDirectory p e = none) :
    ∃ d, t.walk (t.start p) p.parts = .ok d := by
  unfold unlessDirectory at h
  split at h
  · rename_i hdir
    exact (isDirectory_iff.mp hdir).2
  · cases h

theorem Grown.above {l : Location} {above : List String} (h : Grown t t' l above.reverse)
    (name : String) : Grown t t' l (name :: above).reverse :=
  h.mono (by simp)

/-- Making directories adds directories along the path only, and all of them unless it fails. -/
theorem makeDirectories_spec (root : PathRoot) (above : List String) (t : FileTree) :
    Grown t (makeDirectories root above t).1 (t.start ⟨root, above.reverse⟩) above.reverse ∧
    ((makeDirectories root above t).2 = none →
      ∃ d, (makeDirectories root above t).1.walk (t.start ⟨root, above.reverse⟩) above.reverse =
        .ok d) := by
  -- a directory is made at once, or after all above it, or not at all
  fun_induction makeDirectories root above t with
  | case1 t => exact ⟨.refl t _ _, fun _ => ⟨_, rfl⟩⟩
  | case2 name above t p t' hmade => exact (Grown.of_makeDirectory hmade).imp_right fun h _ => h
  | case3 name above t p hmade t' e hrest ih =>
    rw [hrest] at ih
    exact ⟨ih.1.above name, nofun⟩
  | case4 name above t p hmade t' hrest t'' hlast ih =>
    rw [hrest] at ih
    obtain ⟨hgrown, hend⟩ := Grown.of_makeDirectory hlast
    rw [ih.1.leads.start_eq] at hgrown hend
    exact ⟨(ih.1.above name).trans hgrown, fun _ => hend⟩
  | case5 name above t p hmade t' hrest hlast ih =>
    rw [hrest] at ih
    exact ⟨ih.1.above name, nofun⟩
  | case6 name above t p hmade t' hrest e _ hlast ih =>
    rw [hrest] at ih
    refine ⟨ih.1.above name, fun hnone => ?_⟩
    obtain ⟨d, hd⟩ := walk_of_unlessDirectory hnone
    rw [ih.1.leads.start_eq] at hd
    exact ⟨d, hd⟩
  | case7 name above t p e _ hmade => exact ⟨.refl t _ _, walk_of_unlessDirectory⟩

theorem grown_of_ensureDirectory {e : Option FileError} (h : t.ensureDirectory p = (t', e)) :
    Grown t t' (t.start p) p.parts := by
  have hspec := (makeDirectories_spec p.root p.parts.reverse t).1
  rw [← ensureDirectory, h, List.reverse_reverse] at hspec
  exact hspec

theorem walk_of_ensureDirectory (h : t.ensureDirectory p = (t', none)) :
    ∃ d, t'.walk (t.start p) p.parts = .ok d := by
  have hspec := (makeDirectories_spec p.root p.parts.reverse t).2
  rw [← ensureDirectory, h, List.reverse_reverse] at hspec
  exact hspec rfl

theorem makeDirectory_of_walk {root : PathRoot} {front : List String} {name : String}
    {d : Location} (hshort : Path.isTooLong ⟨root, front ++ [name]⟩ = false)
    (h : t.walk (t.start ⟨root, front⟩) (front ++ [name]) = .ok d) :
    t.makeDirectory ⟨root, front ++ [name]⟩ = .error .exists := by
  rw [walk_append] at h
  obtain ⟨d', hfront, hlast⟩ := bind_eq_ok_iff.mp h
  by_cases hname : name = ".."
  · rw [makeDirectory, target_of_walk_above hname hshort hfront]
  · obtain ⟨hfits, hnode, -⟩ := (walk_singleton_iff hname).mp hlast
    rw [makeDirectory, target_of_walk hname hshort hfits hfront]
    simp only [hnode]

theorem ensureDirectory_of_walk {d : Location} (hshort : p.isTooLong = false)
    (h : t.walk (t.start p) p.parts = .ok d) : t.ensureDirectory p = (t, none) := by
  rw [ensureDirectory]
  cases habove : p.parts.reverse with
  | nil => rfl
  | cons name above =>
    have hparts : p.parts = above.reverse ++ [name] := by
      rw [← List.reverse_reverse p.parts, habove, List.reverse_cons]
    have hp : (⟨p.root, (name :: above).reverse⟩ : Path) = p := by
      rw [← habove, List.reverse_reverse]
    have hmade : t.makeDirectory ⟨p.root, (name :: above).reverse⟩ = .error .exists := by
      rw [List.reverse_cons]
      exact makeDirectory_of_walk (by rw [← hparts]; exact hshort) (hparts ▸ h)
    have hdir : t.isDirectory p = true := isDirectory_iff.mpr ⟨hshort, d, h⟩
    rw [makeDirectories, hmade]
    simp only [hp, unlessDirectory, if_pos hdir]

end Directories

/-- A file takes its place, and what stood at another location is gone. -/
def replace (t : FileTree) (gone l : Location) (content : String) : FileTree :=
  (t.erase gone).put l (.file content)

section Replacing

variable {t : FileTree} {gone l m : Location}

theorem node?_replace_self (gone : Location) (content : String)
    (h : t.node? l ≠ some .directory) :
    (t.replace gone l content).node? l = some (.file content) := by
  have hhome := not_isPrefixOf_home h
  exact node?_put_self _ _ hhome

theorem node?_replace_gone (content : String) (h : t.node? gone ≠ some .directory)
    (hne : l ≠ gone) :
    (t.replace gone l content).node? gone = none := by
  rw [replace, node?_put_of_ne _ _ hne.symm]
  exact node?_erase_self (not_isPrefixOf_home h)

theorem node?_replace_of_ne {content : String} (hl : m ≠ l) (hgone : m ≠ gone) :
    (t.replace gone l content).node? m = t.node? m := by
  rw [replace, node?_put_of_ne _ _ hl, node?_erase_of_ne _ hgone]

theorem leads_replace (content : String) (hl : t.node? l ≠ some .directory)
    (hgone : t.node? gone ≠ some .directory) : Leads t (t.replace gone l content) := by
  refine ⟨rfl, fun m hm => ?_⟩
  have hne : m ≠ l := fun hml => hl (hml ▸ hm)
  have hne' : m ≠ gone := fun hml => hgone (hml ▸ hm)
  rw [node?_replace_of_ne hne hne', hm]

theorem replace_replace {content : String} (hne : l ≠ gone) :
    (t.replace gone l content).replace gone l content = t.replace gone l content := by
  rw [replace, replace, erase_put_of_ne hne.symm, erase_erase, put_put]

end Replacing

section Writing

variable {t t' : FileTree} {content : String} {l l' m : Location} {p temporary : Path}

theorem openFile_eq_ok (h : t.openFile temporary = .ok (t', l)) :
    t.target temporary = .ok (.entry l) ∧ t.node? l ≠ some .directory ∧
      t' = t.put l (.file "") := by
  unfold openFile at h
  split at h
  · cases h
  · cases h
  · rename_i l' htarget
    split at h
    · cases h
    · rename_i hdir
      cases h
      exact ⟨htarget, hdir, rfl⟩

/-- Only an opened temporary file is written through. -/
theorem target_of_writeThrough (h : t.writeThrough p temporary content = (t', none)) :
    ∃ l, t.target temporary = .ok (.entry l) := by
  unfold writeThrough at h
  split at h
  · cases h
  · rename_i opened l hopen
    exact ⟨l, (openFile_eq_ok hopen).1⟩

/-- Writing through a temporary file succeeds where neither name is a directory; nothing is left at
the temporary name. -/
theorem writeThrough_eq_ok_iff (hp : t.target p = .ok (.entry l))
    (htemporary : t.target temporary = .ok (.entry l')) (hne : l ≠ l') :
    t.writeThrough p temporary content = (t', none) ↔
      t.node? l ≠ some .directory ∧ t.node? l' ≠ some .directory ∧
      unencodable? 0 content.toList = none ∧ t' = t.replace l' l content := by
  by_cases hdir' : t.node? l' = some .directory
  · simp [writeThrough, openFile, htemporary, hdir']
  · have hopen : t.openFile temporary = .ok (t.put l' (.file ""), l') := by
      rw [openFile, htemporary]
      simp only
    have htarget : (t.put l' (.file content)).target p = .ok (.entry l) :=
      target_mono (leads_put _ hdir') hp
    have hnode : (t.put l' (.file content)).node? l = t.node? l := t.node?_put_of_ne _ hne
    simp only [writeThrough, hopen, put_put]
    cases hcode : unencodable? 0 content.toList with
    | some run => simp
    | none =>
      by_cases hdir : t.node? l = some .directory
      · simp [rename, htarget, hnode, hdir]
      · simp [rename, htarget, hnode, hdir, hdir', erase_put_self, replace, eq_comm]

/-- What writing a file does to a tree: the file has its place, what stood at the temporary name is
gone, and new are directories on the way to the file. -/
structure Rewritten (t t' : FileTree) (p temporary : Path) (content : String) : Prop where
  home : t'.home = t.home
  holds : t'.content? p = some content
  node : ∀ m, t'.node? m = t.node? m ∨
    t'.target p = .ok (.entry m) ∧ t.node? m ≠ some .directory ∧
      t'.node? m = some (.file content) ∨
    t'.target temporary = .ok (.entry m) ∧ (∃ old, t.node? m = some (.file old)) ∧
      t'.node? m = none ∨
    t.node? m = none ∧ t'.node? m = some .directory ∧
      ∃ front, front <+: p.parts.dropLast ∧ t'.walk (t.start p) front = .ok m

theorem Rewritten.leads (h : Rewritten t t' p temporary content) : Leads t t' := by
  refine ⟨h.home, fun m hm => ?_⟩
  rcases h.node m with hsame | ⟨-, hdir, -⟩ | ⟨-, ⟨old, hold⟩, -⟩ | ⟨-, hdir, -⟩
  · rw [hsame, hm]
  · exact absurd hm hdir
  · rw [hold] at hm
    cases hm
  · exact hdir

/-- A file that lies neither at the written path nor at the temporary name keeps its content. -/
theorem Rewritten.content?_eq (h : Rewritten t t' p temporary content) {q : Path} {s : String}
    (hq : t.content? q = some s) (hp : t'.target q ≠ t'.target p)
    (htemporary : t'.target q ≠ t'.target temporary) : t'.content? q = some s := by
  unfold content? at hq
  split at hq
  · rename_i l htarget
    have htarget' : t'.target q = .ok (.entry l) := target_mono h.leads htarget
    split at hq
    · rename_i old hold
      obtain rfl := Option.some.inj hq
      have hnode : t'.node? l = some (.file old) := by
        rcases h.node l with hsame | ⟨hl, -⟩ | ⟨hl, -⟩ | ⟨hnone, -⟩
        · rw [hsame, hold]
        · exact absurd (htarget'.trans hl.symm) hp
        · exact absurd (htarget'.trans hl.symm) htemporary
        · rw [hnone] at hold
          cases hold
      simp only [content?, htarget', hnode]
    · cases hq
  · cases hq

/-- A path whose file has a temporary sibling. -/
structure Sibling (p temporary : Path) (name : String) : Prop where
  last : p.name? = some name
  ne_above : name ≠ ".."
  suffixed : p.withSuffix? temporarySuffix = some temporary

/-- The system knows names and paths of this length. -/
structure Fits (temporary : Path) (name : String) : Prop where
  path : temporary.isTooLong = false
  name : isOverlong (name ++ temporarySuffix) = false

namespace Sibling

variable {name : String} {d : Location}

theorem temporary_eq (h : Sibling p temporary name) :
    temporary = ⟨p.root, p.parts.dropLast ++ [name ++ temporarySuffix]⟩ := by
  have hsome := h.suffixed
  rw [Path.withSuffix?, h.last] at hsome
  exact (Option.some.inj hsome).symm

theorem isTooLong_eq (h : Sibling p temporary name) (hfits : Fits temporary name) :
    p.isTooLong = false := by
  have hlong := hfits.path
  rw [h.temporary_eq] at hlong
  have hshort := Path.isTooLong_of_append hlong
  rw [← Path.parts_eq h.last] at hshort
  exact hshort

theorem isTooLong_parent (h : Sibling p temporary name) (hfits : Fits temporary name) :
    p.parent.isTooLong = false := by
  have hlong := hfits.path
  rw [h.temporary_eq] at hlong
  exact Path.isTooLong_of_child hlong

theorem target (h : Sibling p temporary name) (hfits : Fits temporary name)
    (hwalk : t.walk (t.start p) p.parts.dropLast = .ok d) :
    t.target p = .ok (.entry (d ++ [name])) :=
  target_eq_entry_iff.mpr ⟨d, name, h.last, h.ne_above, h.isTooLong_eq hfits,
    isOverlong_of_append hfits.name, hwalk, rfl⟩

theorem suffix_ne_above (name : String) : name ++ temporarySuffix ≠ ".." := by
  intro hname
  have hlast := congrArg (fun s => s.toList.getLast?) hname
  simp [temporarySuffix] at hlast

theorem target_temporary (h : Sibling p temporary name) (hfits : Fits temporary name)
    (hwalk : t.walk (t.start p) p.parts.dropLast = .ok d) :
    t.target temporary = .ok (.entry (d ++ [name ++ temporarySuffix])) := by
  have hlong := hfits.path
  rw [h.temporary_eq] at hlong ⊢
  exact target_of_walk (suffix_ne_above name) hlong hfits.name hwalk

theorem fits_of_target (h : Sibling p temporary name)
    (htarget : t.target temporary = .ok (.entry l)) :
    Fits temporary name := by
  obtain ⟨d, name', hlast, -, hshort, hfits, -⟩ := target_eq_entry_iff.mp htarget
  have hname : temporary.name? = some (name ++ temporarySuffix) := by
    rw [h.temporary_eq]
    exact List.getLast?_concat
  obtain rfl := Option.some.inj (hlast.symm.trans hname)
  exact ⟨hshort, hfits⟩

theorem location_ne (name : String) (d : Location) :
    d ++ [name] ≠ d ++ [name ++ temporarySuffix] := by
  intro hsame
  have hname := congrArg String.length (List.singleton_inj.mp (List.append_cancel_left hsame))
  simp [temporarySuffix] at hname

theorem write_eq_ok_iff_writeThrough (h : Sibling p temporary name) :
    t.write p content = (t', none) ↔
      unusable? p.parent = none ∧ unusable? temporary = none ∧ ∃ grown,
      t.ensureDirectory p.parent = (grown, none) ∧
      grown.writeThrough p temporary content = (t', none) := by
  simp only [write, h.suffixed]
  constructor
  · intro hwrite
    split at hwrite
    · cases hwrite
    · rename_i hparent
      split at hwrite
      · cases hwrite
      · cases hwrite
      · rename_i grown hmade htemporary
        exact ⟨hparent, htemporary, grown, hmade, hwrite⟩
  · rintro ⟨hparent, htemporary, grown, hmade, hthrough⟩
    simp only [hparent, hmade, htemporary, hthrough]

/-- Writing succeeds just where the system takes the paths, all directories can be made, neither the
file nor its temporary sibling is one, and the text has an encoding. -/
theorem write_eq_ok_iff (h : Sibling p temporary name) :
    t.write p content = (t', none) ↔
      unusable? p.parent = none ∧ unusable? temporary = none ∧ Fits temporary name ∧
      unencodable? 0 content.toList = none ∧ ∃ grown d,
        t.ensureDirectory p.parent = (grown, none) ∧
        grown.walk (t.start p) p.parts.dropLast = .ok d ∧
        grown.node? (d ++ [name]) ≠ some .directory ∧
        grown.node? (d ++ [name ++ temporarySuffix]) ≠ some .directory ∧
        t' = grown.replace (d ++ [name ++ temporarySuffix]) (d ++ [name]) content := by
  rw [h.write_eq_ok_iff_writeThrough]
  constructor
  · rintro ⟨hparent, hsibling, grown, hmade, hthrough⟩
    obtain ⟨d, hwalk⟩ := walk_of_ensureDirectory hmade
    obtain ⟨l', hopened⟩ := target_of_writeThrough hthrough
    have hfits := h.fits_of_target hopened
    have hplace := hwalk
    rw [← (grown_of_ensureDirectory hmade).leads.start_eq] at hplace
    obtain ⟨hfile, htemporary, hcode, htree⟩ := (writeThrough_eq_ok_iff (h.target hfits hplace)
      (h.target_temporary hfits hplace) (location_ne name d)).mp hthrough
    exact ⟨hparent, hsibling, hfits, hcode, grown, d, hmade, hwalk, hfile, htemporary, htree⟩
  · rintro ⟨hparent, hsibling, hfits, hcode, grown, d, hmade, hwalk, hfile, htemporary, htree⟩
    rw [← (grown_of_ensureDirectory hmade).leads.start_eq (p := p)] at hwalk
    exact ⟨hparent, hsibling, grown, hmade, (writeThrough_eq_ok_iff (h.target hfits hwalk)
      (h.target_temporary hfits hwalk) (location_ne name d)).mpr ⟨hfile, htemporary, hcode, htree⟩⟩

theorem rewritten_of_write (h : Sibling p temporary name)
    (hwrite : t.write p content = (t', none)) : Rewritten t t' p temporary content := by
  obtain ⟨-, -, hfits, -, grown, d, hmade, hwalk, hfile, htemporary, rfl⟩ :=
    h.write_eq_ok_iff.mp hwrite
  have hgrown := grown_of_ensureDirectory hmade
  have hleads := leads_replace content hfile htemporary
  have hwalk' := walk_mono hleads hwalk
  rw [← (hgrown.leads.trans hleads).start_eq] at hwalk'
  have hself := node?_replace_self (d ++ [name ++ temporarySuffix]) content hfile
  have hgone := node?_replace_gone content htemporary (location_ne name d)
  refine ⟨hgrown.home, by rw [content?, h.target hfits hwalk']; simp only [hself], fun m => ?_⟩
  by_cases hl : m = d ++ [name]
  · subst hl
    exact .inr (.inl ⟨h.target hfits hwalk', fun hdir => hfile (hgrown.kept hdir), hself⟩)
  · by_cases hl' : m = d ++ [name ++ temporarySuffix]
    · subst hl'
      cases hold : t.node? (d ++ [name ++ temporarySuffix]) with
      | none => exact .inl hgone
      | some node =>
        cases node with
        | directory => exact absurd (hgrown.kept hold) htemporary
        | file old =>
          exact .inr (.inr (.inl ⟨h.target_temporary hfits hwalk', ⟨old, rfl⟩, hgone⟩))
    · rw [node?_replace_of_ne hl hl']
      refine (hgrown.node m).imp_right fun ⟨hnone, hdir, front, hfront, hend⟩ => ?_
      exact .inr (.inr ⟨hnone, hdir, front, hfront, walk_mono hleads hend⟩)

/-- Writing a file a second time changes nothing. -/
theorem write_again (h : Sibling p temporary name) (hwrite : t.write p content = (t', none)) :
    t'.write p content = (t', none) := by
  obtain ⟨hparent, hsibling, hfits, hcode, grown, d, hmade, hwalk, hfile, htemporary, rfl⟩ :=
    h.write_eq_ok_iff.mp hwrite
  have hleads := leads_replace content hfile htemporary
  have hwalk' := walk_mono hleads hwalk
  rw [← ((grown_of_ensureDirectory hmade).leads.trans hleads).start_eq (p := p)] at hwalk'
  have hself := node?_replace_self (d ++ [name ++ temporarySuffix]) content hfile
  have hgone := node?_replace_gone content htemporary (location_ne name d)
  exact h.write_eq_ok_iff.mpr ⟨hparent, hsibling, hfits, hcode, _, d,
    ensureDirectory_of_walk (h.isTooLong_parent hfits) hwalk', hwalk',
    by rw [hself]; nofun, by rw [hgone]; nofun, (replace_replace (location_ne name d)).symm⟩

end Sibling

end Writing

end BuildConstants.FileTree
