/-
# Laws of a file system

Two things that can be relied on: that a successful write is what the next reading returns, and
that a file which is there can be read and written for as long as nothing else happens to it.
Neither says anything about a file that is missing or a write that is refused.
-/
import VersionStamp.Files

namespace VersionStamp

namespace Files

variable {σ : Type}

/-- What is written with success is what the next reading of the same path returns. -/
def ReadsBack (files : Files (StateM σ)) : Prop :=
  ∀ path text s s', (files.write path text).run s = (.ok (), s') →
    ((files.read path).run s').1 = .ok text

/-- The file at a path is there to stay: where `holds s text` says that it holds a text, reading
returns this text and leaves it there, and writing succeeds and puts another one there. -/
structure Keeps (files : Files (StateM σ)) (path : Path) (holds : σ → String → Prop) : Prop where
  read_holds : ∀ {s text}, holds s text →
    ∃ s', (files.read path).run s = (.ok text, s') ∧ holds s' text
  write_holds : ∀ {s old} (text : String), holds s old →
    ∃ s', (files.write path text).run s = (.ok (), s') ∧ holds s' text

end Files

end VersionStamp
