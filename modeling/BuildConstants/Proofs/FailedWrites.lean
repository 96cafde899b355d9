import BuildConstants.Proofs.FileWriting

/-!
# Writes that fail

A write that fails leaves every file as it was, save what stood at the temporary name, which is
taken away with the attempt. Directories that were made on the way stay. The one failure without
that care is a text that has no encoding: its temporary file is left behind, empty.
-/

namespace BuildConstants.FileTree

/-- What a failed attempt leaves at the temporary name. -/
def leftover : Fault → Option FileNode
  | .unencodable .. => some (.file "")
  | _ => none

/-- A tree that differs at one path only, which was no directory and now holds what is left. -/
structure Touched (t t' : FileTree) (q : Path) (left : Option FileNode) : Prop where
  home : t'.home = t.home
  node : ∀ m, t'.node? m = t.node? m ∨
    t'.target q = .ok (.entry m) ∧ t.node? m ≠ some .directory ∧ t'.node? m = left

namespace Touched

variable {t t' : FileTree} {q : Path} {l m : Location} {left : Option FileNode}

theorem refl (t : FileTree) (q : Path) (left : Option FileNode) : Touched t t q left :=
  ⟨rfl, fun _ => .inl rfl⟩

theorem leads (h : Touched t t' q left) : Leads t t' := by
  refine ⟨h.home, fun m hm => ?_⟩
  obtain hsame | ⟨-, hdir, -⟩ := h.node m
  · rw [hsame, hm]
  · exact absurd hm hdir

theorem of_entry (hhome : t'.home = t.home) (htarget : t.target q = .ok (.entry l))
    (hdir : t.node? l ≠ some .directory) (hothers : ∀ m, m ≠ l → t'.node? m = t.node? m)
    (hleft : t'.node? l = left) : Touched t t' q left := by
  have hleads : Leads t t' := by
    refine ⟨hhome, fun m hm => ?_⟩
    have hne : m ≠ l := fun hml => hdir (hml ▸ hm)
    rw [hothers m hne, hm]
  refine ⟨hhome, fun m => ?_⟩
  by_cases hml : m = l
  · subst hml
    exact .inr ⟨target_mono hleads htarget, hdir, hleft⟩
  · exact .inl (hothers m hml)

theorem of_erase (htarget : t.target q = .ok (.entry l)) (hdir : t.node? l ≠ some .directory) :
    Touched t (t.erase l) q none :=
  of_entry rfl htarget hdir (fun _ => t.node?_erase_of_ne)
    (node?_erase_self (not_isPrefixOf_home hdir))

theorem of_put (htarget : t.target q = .ok (.entry l)) (hdir : t.node? l ≠ some .directory)
    (content : String) : Touched t (t.put l (.file content)) q (some (.file content)) :=
  of_entry rfl htarget hdir (fun _ => t.node?_put_of_ne _)
    (t.node?_put_self _ (not_isPrefixOf_home hdir))

theorem of_removeFile (t : FileTree) (q : Path) : Touched t (t.removeFile q) q none := by
  unfold removeFile
  split
  · rename_i l htarget
    split
    · rename_i content hfile
      exact of_erase htarget (by simp [hfile])
    · exact refl t q none
  · exact refl t q none

end Touched

section Writing

variable {t t' : FileTree} {p temporary : Path} {content : String} {e : Fault} {l m : Location}

/-- An encoding error is about the text, and leaves an empty file at the temporary name. -/
def LeavesEmpty (t' : FileTree) (temporary : Path) (content : String) (e : Fault) : Prop :=
  ∀ first last code, e = .unencodable first last code →
    unencodable? 0 content.toList = some (first, last, code) ∧ t'.content? temporary = some ""

theorem LeavesEmpty.of_ne (h : ∀ first last code, e ≠ .unencodable first last code) :
    LeavesEmpty t' temporary content e :=
  fun first last code hsame => absurd hsame (h first last code)

/-- Filling and renaming fails with the temporary file removed, or with an empty one for a text
that has no encoding. -/
theorem touched_of_writeThrough (h : t.writeThrough p temporary content = (t', some e)) :
    Touched t t' temporary (leftover e) ∧ LeavesEmpty t' temporary content e := by
  unfold writeThrough at h
  split at h
  · cases h
    exact ⟨.of_removeFile t temporary, .of_ne fun _ _ _ => Fault.noConfusion⟩
  · rename_i opened l hopen
    obtain ⟨htarget, hdir, rfl⟩ := openFile_eq_ok hopen
    split at h
    · rename_i first last code hcode
      cases h
      have hput := Touched.of_put htarget hdir ""
      have hself := t.node?_put_self (.file "") (not_isPrefixOf_home hdir)
      refine ⟨hput, fun first' last' code' hsame => ?_⟩
      cases hsame
      refine ⟨hcode, ?_⟩
      rw [content?, target_mono hput.leads htarget]
      simp only [hself]
    · split at h
      · cases h
      · cases h
        rw [erase_put_self]
        exact ⟨.of_erase htarget hdir, .of_ne fun _ _ _ => Fault.noConfusion⟩

/-- What a failed write does to a tree: new are directories on the way to the file, and what stood
at the temporary name made room for what is left. -/
structure Abandoned (t t' : FileTree) (p temporary : Path) (left : Option FileNode) : Prop where
  home : t'.home = t.home
  node : ∀ m, t'.node? m = t.node? m ∨
    t'.target temporary = .ok (.entry m) ∧ t.node? m ≠ some .directory ∧ t'.node? m = left ∨
    t.node? m = none ∧ t'.node? m = some .directory ∧
      ∃ front, front <+: p.parts.dropLast ∧ t'.walk (t.start p) front = .ok m

theorem Grown.abandoned {grown : FileTree} {left : Option FileNode}
    (h : Grown t grown (t.start p) p.parts.dropLast) (h' : Touched grown t' temporary left) :
    Abandoned t t' p temporary left := by
  refine ⟨h'.home.trans h.home, fun m => ?_⟩
  obtain hsame | ⟨hnone, hdir, front, hfront, hwalk⟩ := h.node m
  · obtain hsame' | ⟨htarget, hdir, hleft⟩ := h'.node m
    · exact .inl (hsame'.trans hsame)
    · exact .inr (.inl ⟨htarget, hsame ▸ hdir, hleft⟩)
  · exact .inr (.inr ⟨hnone, h'.leads.kept _ hdir, front, hfront, walk_mono h'.leads hwalk⟩)

/-- What makes a path unusable is never the encoding of a text. -/
theorem ne_unencodable_of_unusable? {q : Path} (h : unusable? q = some e) (first last code : Nat) :
    e ≠ .unencodable first last code := by
  obtain ⟨_, _, _, rfl⟩ | rfl := fault_of_unusable? h <;> exact Fault.noConfusion

theorem leftover_eq_none (h : ∀ first last code, e ≠ .unencodable first last code) :
    leftover e = none := by
  unfold leftover
  split
  · exact absurd rfl (h _ _ _)
  · rfl

theorem abandoned_of_write (hsuffix : p.withSuffix? temporarySuffix = some temporary)
    (h : t.write p content = (t', some e)) :
    Abandoned t t' p temporary (leftover e) ∧ LeavesEmpty t' temporary content e := by
  simp only [write, hsuffix] at h
  split at h
  · rename_i cause hcause
    cases h
    have hstays : Grown t t (t.start p) p.parts.dropLast := .refl t _ _
    exact ⟨hstays.abandoned (.refl _ _ _), .of_ne (ne_unencodable_of_unusable? hcause)⟩
  · split at h
    · rename_i grown failure cause hmade hcause
      have hgrown : Grown t grown (t.start p) p.parts.dropLast := grown_of_ensureDirectory hmade
      cases h
      exact ⟨hgrown.abandoned (.refl _ _ _), .of_ne (ne_unencodable_of_unusable? hcause)⟩
    · rename_i grown failure hmade _
      have hgrown : Grown t grown (t.start p) p.parts.dropLast := grown_of_ensureDirectory hmade
      cases h
      exact ⟨hgrown.abandoned (.of_removeFile grown temporary),
        .of_ne fun _ _ _ => Fault.noConfusion⟩
    · rename_i grown hmade _
      have hgrown : Grown t grown (t.start p) p.parts.dropLast := grown_of_ensureDirectory hmade
      exact (touched_of_writeThrough h).imp_left hgrown.abandoned

/-- A failed write leaves all files but the temporary one, and all directories, as they are. If it
fails for any reason but the encoding of the text, it leaves no new file either. A text that has no
encoding leaves the temporary file behind, empty. -/
theorem write_failure (hsuffix : p.withSuffix? temporarySuffix = some temporary)
    (h : t.write p content = (t', some e)) :
    t'.home = t.home ∧
    (∀ m s, t'.target temporary ≠ .ok (.entry m) →
      (t'.node? m = some (.file s) ↔ t.node? m = some (.file s))) ∧
    (∀ m, t.node? m = some .directory → t'.node? m = some .directory) ∧
    ((∀ first last code, e ≠ .unencodable first last code) →
      ∀ m s, t'.node? m = some (.file s) → t.node? m = some (.file s)) ∧
    (∀ first last code, e = .unencodable first last code →
      unencodable? 0 content.toList = some (first, last, code) ∧
      t'.content? temporary = some "") := by
  obtain ⟨habandoned, hencoding⟩ := abandoned_of_write hsuffix h
  refine ⟨habandoned.home, ?_, ?_, ?_, hencoding⟩
  · intro m s hother
    obtain hsame | ⟨htarget, -⟩ | ⟨hnone, hdir, -⟩ := habandoned.node m
    · rw [hsame]
    · exact absurd htarget hother
    · simp [hnone, hdir]
  · intro m hm
    obtain hsame | ⟨-, hdir, -⟩ | ⟨-, hdir, -⟩ := habandoned.node m
    · rw [hsame, hm]
    · exact absurd hm hdir
    · exact hdir
  · intro hother m s hm
    obtain hsame | ⟨-, -, hleft⟩ | ⟨-, hdir, -⟩ := habandoned.node m
    · rwa [hsame] at hm
    · rw [hleft, leftover_eq_none hother] at hm
      cases hm
    · rw [hdir] at hm
      cases hm

end Writing

/-- A directory in the place of the file, and an old temporary file. -/
def occupied : FileTree :=
  ofFiles [("x.kt", none), ("x.kt.tmp", some "old"), ("y.kt", some "b")]

theorem write_failure_occupied :
    ∃ t', occupied.write (.parse "x.kt") "a" =
        (t', some (.unwritable "x.kt" ⟨.isDirectory, "x.kt.tmp", some "x.kt"⟩)) ∧
      t'.node? (occupied.home ++ ["y.kt"]) = some (.file "b") ∧
      t'.node? (occupied.home ++ ["x.kt"]) = some .directory ∧
      ∀ s, t'.node? (occupied.home ++ ["z.kt"]) ≠ some (.file s) := by
  have hsuffix : (Path.parse "x.kt").withSuffix? temporarySuffix = some (.parse "x.kt.tmp") := rfl
  have hwrite : occupied.write (.parse "x.kt") "a" = ((occupied.write (.parse "x.kt") "a").1,
      some (.unwritable "x.kt" ⟨.isDirectory, "x.kt.tmp", some "x.kt"⟩)) := rfl
  have htarget : (occupied.write (.parse "x.kt") "a").1.target (.parse "x.kt.tmp") =
      .ok (.entry (occupied.home ++ ["x.kt.tmp"])) := rfl
  obtain ⟨-, hfiles, hdirectories, hnew, -⟩ := write_failure hsuffix hwrite
  refine ⟨_, hwrite, (hfiles _ "b" ?_).mpr rfl, hdirectories _ rfl, fun s hs => ?_⟩
  · rw [htarget]
    simp
  · cases hnew nofun _ s hs

/-- A lone surrogate: the attempt ends behind the opening of the temporary file. -/
theorem write_leaves_temporary :
    ((ofFiles []).write (.parse "x.kt") (.singleton (.ofNat 0xf0000))).2 =
      some (.unencodable 0 0 0xd800) ∧
    (ofFiles []).content? (.parse "x.kt.tmp") = none ∧
    ((ofFiles []).write (.parse "x.kt") (.singleton (.ofNat 0xf0000))).1.content?
      (.parse "x.kt.tmp") = some "" := by
  refine ⟨rfl, rfl, rfl⟩

end BuildConstants.FileTree
