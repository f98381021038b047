import Spacecraft.LittleEndian
import Spacecraft.Storage.Error

/-!
# File stores

What the mission asks of a place that keeps files: whole-file reads, overwriting and appending writes, moves and
sizes.  Every operation that can change the store returns the store as it is afterwards, also when it fails.  What may be
relied on where the store is in order is stated apart (`LawfulFileStore`).
-/

namespace Spacecraft

/-- A place that keeps named files. -/
class FileStore (σ : Type) where
  /-- The whole content of a file. -/
  read : σ → String → Except FileError Bytes
  /-- Create a file or replace its content. -/
  write : String → Bytes → σ → Except FileError Unit × σ
  /-- Add bytes at the end of a file, creating it if needed. -/
  append : String → Bytes → σ → Except FileError Unit × σ
  /-- Move a file, replacing the target. -/
  rename : String → String → σ → Except FileError Unit × σ
  /-- The number of bytes of a file. -/
  size : σ → String → Except FileError Nat

/-- A store that works: what is written or appended is read back, and a file stays as it was where an append fails. -/
class LawfulFileStore (σ : Type) [FileStore σ] : Prop where
  read_write (path : String) (content : Bytes) (store : σ) :
    (FileStore.write path content store).1.toBool = true →
      FileStore.read (FileStore.write path content store).2 path = .ok content
  read_append (path : String) (content bytes : Bytes) (store : σ) :
    FileStore.read store path = .ok content → (FileStore.append path bytes store).1.toBool = true →
      FileStore.read (FileStore.append path bytes store).2 path = .ok (content ++ bytes)
  read_append_of_fails (path : String) (bytes : Bytes) (store : σ) :
    (FileStore.append path bytes store).1.toBool = false →
      FileStore.read (FileStore.append path bytes store).2 path = FileStore.read store path

namespace FileStore

variable {σ : Type} [FileStore σ]

/-- The first `n` bytes of a file, refused when the file is shorter. -/
def readExact (n : Nat) (store : σ) (path : String) : Except FileError Bytes :=
  match read store path with
  | .error e => .error e
  | .ok content => if content.length < n then .error (.truncated path n content.length) else .ok (content.take n)

end FileStore

end Spacecraft
