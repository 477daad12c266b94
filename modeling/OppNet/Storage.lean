import OppNet.Json.Reader
import OppNet.Json.Writer
import OppNet.Storage.Folder

/-!
# OppNet.Storage

Where JSON files are kept. `load` and `save` work on any kind of storage, and only touch files
whose name ends in `.json`.
-/

namespace OppNet

open Json (Value)

inductive FileFailure where
  | notJsonToRead
  | notJsonToWrite
  /-- No such file, or no folder to put it into. -/
  | missing
  /-- The text is no JSON, or not in the form asked for. -/
  | unreadable
  deriving DecidableEq, Repr

def FileFailure.message : FileFailure → String
  | notJsonToRead => "Tried to read config from non-json file!"
  | notJsonToWrite => "Tried to write config to non-json file!"
  | missing => "No such file or directory (os error 2)"
  | unreadable => "The file is not in the expected form!"

namespace Storage

variable {m : Type → Type} [Monad m] {α : Type}

def load (storage : Storage m) (ofJson? : Value → Option α) (path : String) :
    m (Except FileFailure α) :=
  if Path.isJson path then do
    match ← storage.read path with
    | none => return .error .missing
    | some text =>
      match (Json.read? text).bind ofJson? with
      | none => return .error .unreadable
      | some a => return .ok a
  else return .error .notJsonToRead

def save (storage : Storage m) (v : Value) (path : String) : m (Except FileFailure Unit) :=
  if Path.isJson path then do
    if ← storage.write path v.text then return .ok () else return .error .missing
  else return .error .notJsonToWrite

end Storage

end OppNet
