import Spreadsheet.Store.Access
import Spreadsheet.Store.CellTexts

namespace Spreadsheet

structure MemoryStore where
  texts : CellTexts
  access : Access

namespace MemoryStore

/-- Puts a raw text into a cell whatever the access. -/
def insert (store : MemoryStore) (cell : Cell) (raw : String) : MemoryStore :=
  { store with texts := store.texts.write cell raw }

def write (store : MemoryStore) (cell : Cell) (raw : String) :
    Except StoreError Unit × MemoryStore :=
  match store.access with
  | .readOnly => (.error .readOnly, store)
  | .writable => (.ok (), store.insert cell raw)

instance : CellStore MemoryStore where
  raw store := store.texts.raw
  write := write
  cells store := store.texts.toList

end MemoryStore

/-- Memory that several handles share, each with its own access. -/
structure SharedMemory (Handle : Type) where
  texts : CellTexts
  access : Handle → Access

namespace SharedMemory

variable {Handle : Type}

def store (memory : SharedMemory Handle) (handle : Handle) : MemoryStore :=
  { texts := memory.texts, access := memory.access handle }

def insert (memory : SharedMemory Handle) (handle : Handle) (cell : Cell) (raw : String) :
    SharedMemory Handle :=
  { memory with texts := ((memory.store handle).insert cell raw).texts }

def write (memory : SharedMemory Handle) (handle : Handle) (cell : Cell) (raw : String) :
    Except StoreError Unit × SharedMemory Handle :=
  let (result, store) := (memory.store handle).write cell raw
  (result, { memory with texts := store.texts })

def restrict [DecidableEq Handle] (memory : SharedMemory Handle) (handle : Handle) :
    SharedMemory Handle :=
  { memory with
    access := fun other => if other = handle then .readOnly else memory.access other }

end SharedMemory

end Spreadsheet
