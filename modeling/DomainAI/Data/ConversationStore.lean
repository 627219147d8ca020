import DomainAI.Data.Models
import DomainAI.Library.Program

/-!
# ConversationStore

The history lives in one encrypted file next to a raw backup and a temp name an
older build used.  A ciphertext can only be decrypted under the name it was
sealed under, so a file's content is either unreadable or a list together with
that name.

Every file operation is a primitive of the program; a file being written exists
and is unreadable until its last byte is written.
-/

namespace DomainAI
namespace ConversationStore

open Library

/-- `conversations.enc`, `conversations.enc.bak` and `conversations.enc.tmp`. -/
inductive StoreFile where
  | canonical
  | backup
  | temp
  deriving DecidableEq, Repr

inductive Content where
  | unreadable
  | sealed (name : StoreFile) (conversations : List Conversation)
  deriving DecidableEq, Repr

structure Files where
  canonical : Option Content := none
  backup : Option Content := none
  temp : Option Content := none
  deriving DecidableEq, Repr

namespace Files

def get (d : Files) : StoreFile -> Option Content
  | StoreFile.canonical => d.canonical
  | StoreFile.backup => d.backup
  | StoreFile.temp => d.temp

def set (d : Files) (f : StoreFile) (c : Option Content) : Files :=
  match f with
  | StoreFile.canonical => { d with canonical := c }
  | StoreFile.backup => { d with backup := c }
  | StoreFile.temp => { d with temp := c }

end Files

/-!
# File operations
-/

inductive FileOp where
  | present (f : StoreFile)
  /-- `File.delete`; the result says whether a file was deleted. -/
  | delete (f : StoreFile)
  | renameTo (source target : StoreFile)
  | readRaw (f : StoreFile)
  | openRaw (f : StoreFile)
  /-- `EncryptedFile.openFileOutput`, which refuses to overwrite. -/
  | openEncrypted (f : StoreFile)
  | finish (f : StoreFile) (c : Content)
  /-- `EncryptedFile.openFileInput`, read and decode. -/
  | decrypt (f : StoreFile)
  deriving DecidableEq, Repr

abbrev FileOp.Result : FileOp -> Type
  | FileOp.present _ => Bool
  | FileOp.delete _ => Bool
  | FileOp.renameTo _ _ => Bool
  | FileOp.readRaw _ => Option Content
  | FileOp.openRaw _ => Bool
  | FileOp.openEncrypted _ => Bool
  | FileOp.finish _ _ => Bool
  | FileOp.decrypt _ => Option (List Conversation)

def decode (f : StoreFile) : Option Content -> Option (List Conversation)
  | some (Content.sealed name conversations) =>
      if name = f then some conversations else none
  | _ => none

/-- What goes wrong at one operation, if anything. -/
inductive Fault where
  | none
  /-- A decryption fails although the bytes are good; nothing else does. -/
  | decryption
  | failure
  deriving DecidableEq, Repr, Inhabited

def Fault.hits : Fault -> FileOp -> Bool
  | Fault.none, _ => false
  | Fault.decryption, FileOp.decrypt _ => true
  | Fault.decryption, _ => false
  | Fault.failure, _ => true

@[simp] theorem Fault.hits_default (o : FileOp) :
    (default : Fault).hits o = false := rfl

def execute (fails : Bool) : (o : FileOp) -> Files -> o.Result × Files
  | FileOp.present f, d => ((d.get f).isSome, d)
  | FileOp.delete f, d =>
      if fails then (false, d) else ((d.get f).isSome, d.set f none)
  | FileOp.renameTo source target, d =>
      match fails, d.get source with
      | false, some c => (true, (d.set target (some c)).set source none)
      | _, _ => (false, d)
  | FileOp.readRaw f, d => (if fails then none else d.get f, d)
  | FileOp.openRaw f, d =>
      if fails then (false, d) else (true, d.set f (some Content.unreadable))
  | FileOp.openEncrypted f, d =>
      if fails || (d.get f).isSome then (false, d)
      else (true, d.set f (some Content.unreadable))
  | FileOp.finish f c, d =>
      if fails then (false, d) else (true, d.set f (some c))
  | FileOp.decrypt f, d => (if fails then none else decode f (d.get f), d)

def exec (o : FileOp) (fault : Fault) (d : Files) : o.Result × Files :=
  execute (fault.hits o) o d

abbrev StoreProgram := Program FileOp FileOp.Result

@[simp] def present (f : StoreFile) : StoreProgram Bool :=
  Program.operation (FileOp.present f)

@[simp] def delete (f : StoreFile) : StoreProgram Bool :=
  Program.operation (FileOp.delete f)

@[simp] def renameTo (source target : StoreFile) : StoreProgram Bool :=
  Program.operation (FileOp.renameTo source target)

@[simp] def readRaw (f : StoreFile) : StoreProgram (Option Content) :=
  Program.operation (FileOp.readRaw f)

@[simp] def openRaw (f : StoreFile) : StoreProgram Bool :=
  Program.operation (FileOp.openRaw f)

@[simp] def openEncrypted (f : StoreFile) : StoreProgram Bool :=
  Program.operation (FileOp.openEncrypted f)

@[simp] def finish (f : StoreFile) (c : Content) : StoreProgram Bool :=
  Program.operation (FileOp.finish f c)

@[simp] def decrypt (f : StoreFile) : StoreProgram (Option (List Conversation)) :=
  Program.operation (FileOp.decrypt f)

/-!
# Load
-/

/-- Remove a file that would be overwritten; false when it stays. -/
def removeTarget (target : StoreFile) : StoreProgram Bool := do
  if ← present target then delete target else pure true

def copyBytes (source target : StoreFile) : StoreProgram Unit := do
  match ← readRaw source with
  | none => pure ()
  | some c =>
      if ← openRaw target then
        let _ ← finish target c

/-- `runCatching { source.copyTo(target, overwrite = true) }`. -/
def copyTo (source target : StoreFile) : StoreProgram Unit := do
  if ← present source then
    if ← removeTarget target then
      copyBytes source target

def readEncrypted (target : StoreFile) :
    StoreProgram (Option (List Conversation)) := do
  if ← present target then decrypt target else pure none

/-- Step 4: a temp left by an interrupted old save. -/
def loadTemp : StoreProgram (List Conversation) := do
  match ← readEncrypted StoreFile.temp with
  | some recovered => pure recovered
  | none => pure []

/-- Step 3: canonical bytes that were sealed under the temp name. -/
def loadLegacy : StoreProgram (List Conversation) := do
  if ← present StoreFile.canonical then
    copyTo StoreFile.canonical StoreFile.temp
    match ← readEncrypted StoreFile.temp with
    | some recovered =>
        let _ ← delete StoreFile.temp
        pure recovered
    | none =>
        let _ ← delete StoreFile.temp
        loadTemp
  else
    loadTemp

/-- Step 2: the backup stands in for a missing canonical file. -/
def loadBackup : StoreProgram (List Conversation) := do
  if ← present StoreFile.backup then
    if ← present StoreFile.canonical then
      loadLegacy
    else
      let _ ← renameTo StoreFile.backup StoreFile.canonical
      match ← readEncrypted StoreFile.canonical with
      | some conversations => pure conversations
      | none => loadLegacy
  else
    loadLegacy

def load : StoreProgram (List Conversation) := do
  match ← readEncrypted StoreFile.canonical with
  | some conversations => pure conversations
  | none => loadBackup

/-!
# Save
-/

/-- Write the list to the canonical name; false stands for an exception. -/
def writeCanonical (conversations : List Conversation) : StoreProgram Bool := do
  if ← openEncrypted StoreFile.canonical then
    finish StoreFile.canonical
      (Content.sealed StoreFile.canonical conversations)
  else
    pure false

/-- The handler of a failed save: bring the backup back. -/
def restoreBackup : StoreProgram Unit := do
  if ← present StoreFile.backup then
    let _ ← delete StoreFile.canonical
    let _ ← renameTo StoreFile.backup StoreFile.canonical

def readBack (written : Bool) : StoreProgram (Option (List Conversation)) :=
  if written then readEncrypted StoreFile.canonical else pure none

def writeVerified (conversations : List Conversation) : StoreProgram Bool := do
  let written ← writeCanonical conversations
  match ← readBack written with
  | some _ =>
      let _ ← delete StoreFile.backup
      pure true
  | none =>
      restoreBackup
      pure false

def backUp : StoreProgram Unit := do
  if ← present StoreFile.canonical then
    copyTo StoreFile.canonical StoreFile.backup

def removeCanonical : StoreProgram Unit := do
  if ← present StoreFile.canonical then
    let _ ← delete StoreFile.canonical

/-- Save a list; the result says whether the call returned normally. -/
def save (conversations : List Conversation) : StoreProgram Bool := do
  backUp
  removeCanonical
  let _ ← delete StoreFile.temp
  writeVerified conversations

/-!
# Runs
-/

/-- The list a load returns when no operation fails. -/
def loadResult (d : Files) : List Conversation :=
  (Program.run exec load [] d).1

def loadFiles (d : Files) : Files :=
  (Program.run exec load [] d).2.1

def saveFiles (conversations : List Conversation) (faults : List Fault)
    (d : Files) : Files :=
  (Program.run exec (save conversations) faults d).2.1

def saveReturns (conversations : List Conversation) (faults : List Fault)
    (d : Files) : Bool :=
  (Program.run exec (save conversations) faults d).1

end ConversationStore
end DomainAI
