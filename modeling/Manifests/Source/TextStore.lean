import Manifests.Source

/-! # Texts in memory

A source that serves texts from a list. Its paths are compared in their normal form. -/

namespace Manifests

/-- Texts with their paths in normal form; the first entry of a path counts. -/
structure TextStore where
  files : List (Path × String)

namespace TextStore

/-- The store without texts. -/
def empty : TextStore := ⟨[]⟩

/-- Stores a text, in place of one at the same path. -/
def insert (store : TextStore) (path : Path) (text : String) : TextStore := ⟨(path.normalize, text) :: store.files⟩

/-- The store of texts in the order in which they are inserted. -/
def ofList (files : List (String × String)) : TextStore :=
  files.foldl (fun store file => store.insert (Path.ofText file.1) file.2) empty

def read (store : TextStore) (path : Path) : Except AccessFault String :=
  match store.files.lookup path.normalize with
  | some text => .ok text
  | none => .error (.noStoredFile path.normalize)

/-- The path that a text means in a directory. -/
def resolve (base : Path) (reference : String) : Path := (base.join (Path.ofText reference)).normalize

/-- The normal form of a path that is a file of the store or a directory above one. -/
def canonicalize (store : TextStore) (path : Path) : Except AccessFault Path :=
  if store.files.any fun file => file.1.startsWith path.normalize then .ok path.normalize
  else .error (.noStoredPath path.normalize)

def source (store : TextStore) : Source Id where
  read := store.read
  resolve := resolve
  canonicalize := store.canonicalize
  fileBound := store.files.length

end TextStore

end Manifests
