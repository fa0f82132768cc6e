/-
# The store of a version

A store is a version file at a path, with the stem of its macros.
-/
import VersionStamp.Fault

namespace VersionStamp

/-- Where a version file is, and the stem after which its macros are named. -/
structure Store where
  path : Path
  stem : String
  deriving DecidableEq, Repr

namespace Store

variable {m : Type → Type} [Monad m]

/-- The version that the file holds. -/
def load (files : Files m) (store : Store) : m (Except Fault Version) := do
  match ← files.read store.path with
  | .error refusal => return .error (.ofRefusal store.path refusal)
  | .ok text => return (Header.parse text).mapError (.malformed store.path)

/-- Writes a version to the file, in canonical form. -/
def persist (files : Files m) (store : Store) (v : Version) : m (Except Fault Unit) := do
  let written ← files.write store.path (Header.render store.stem v)
  return written.mapError (.ofRefusal store.path)

end Store

end VersionStamp
