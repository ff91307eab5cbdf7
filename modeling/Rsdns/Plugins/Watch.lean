/-!
# File watches (`plugins/util.rs`)

A watcher sits on the directory of its file and hears of everything in there.  It calls
back for the events that end a change and are about the file.
-/

namespace Rsdns.Plugins

inductive AccessMode where
  | Any
  | Execute
  | Read
  | Write
  | Other
  deriving DecidableEq

inductive AccessKind where
  | Any
  | Read
  | Open (mode : AccessMode)
  | Close (mode : AccessMode)
  | Other
  deriving DecidableEq

inductive CreateKind where
  | Any
  | File
  | Folder
  | Other
  deriving DecidableEq

inductive DataChange where
  | Any
  | Size
  | Content
  | Other
  deriving DecidableEq

inductive MetadataKind where
  | Any
  | AccessTime
  | WriteTime
  | Permissions
  | Ownership
  | Extended
  | Other
  deriving DecidableEq

inductive RenameMode where
  | Any
  | To
  | From
  | Both
  | Other
  deriving DecidableEq

inductive ModifyKind where
  | Any
  | Data (change : DataChange)
  | Metadata (kind : MetadataKind)
  | Name (mode : RenameMode)
  | Other
  deriving DecidableEq

inductive RemoveKind where
  | Any
  | File
  | Folder
  | Other
  deriving DecidableEq

inductive EventKind where
  | Any
  | Access (kind : AccessKind)
  | Create (kind : CreateKind)
  | Modify (kind : ModifyKind)
  | Remove (kind : RemoveKind)
  | Other
  deriving DecidableEq

structure WatchEvent (Path : Type) where
  kind : EventKind
  paths : List Path

def isChangeEvent : EventKind → Bool
  | .Access (.Close .Write) => true
  | .Modify (.Name _) => true
  | .Create _ => true
  | .Remove _ => true
  | .Any => true
  | .Other => true
  | _ => false

/-- Whether the watcher of a file calls back.  There is no target if the watch could not be
installed, and no event if the watcher reports an error. -/
def watchFile {Path : Type} [DecidableEq Path] (target : Option Path)
    (result : Option (WatchEvent Path)) : Bool :=
  match target, result with
  | some target, some event => isChangeEvent event.kind && event.paths.contains target
  | _, _ => false

end Rsdns.Plugins
