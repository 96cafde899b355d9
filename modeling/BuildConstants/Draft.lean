import BuildConstants.Generation

/-!
# Drafts

A draft is a request that grows step by step, together with the tree that it is generated into.
Its constants are kept as they were added; only the request that is made of them has distinct
names.
-/

namespace BuildConstants

structure Draft where
  constants : List Constant
  options : Request
  tree : FileTree

namespace Draft

def outputDir : Path := .parse "out"

def start (tree : FileTree) : Draft :=
  ⟨[], .ofConstants outputDir [], tree⟩

def request (d : Draft) : Request :=
  { d.options with constants := Constant.distinct d.constants }

def add (d : Draft) (c : Constant) : Draft :=
  { d with constants := d.constants ++ [c] }

def deduplicate (d : Draft) : Draft :=
  { d with constants := Constant.distinct d.constants }

def clear (d : Draft) : Draft :=
  { d with constants := [] }

def register (d : Draft) (name : String) (entry : ClassEntry) : Draft :=
  { d with options := { d.options with classes := d.options.classes.register name entry } }

def generate (d : Draft) : Draft × Except Fault Path :=
  let (tree, result) := d.request.generate d.tree
  ({ d with tree := tree }, result)

def write (d : Draft) (p : Path) (content : String) : Draft × Option Fault :=
  let (tree, fault) := d.tree.write p content
  ({ d with tree := tree }, fault)

end Draft

end BuildConstants
