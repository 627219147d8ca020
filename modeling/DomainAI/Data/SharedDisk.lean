import DomainAI.Data.ConversationStore
import DomainAI.Library.Interleaving

/-!
# A disk for two callers

A name leads to a file, and an open stream goes on to write its file when the name
has long been given to another one, or to none.  So files are numbered, and a name
and a stream hold a number.
-/

namespace DomainAI
namespace ConversationStore

open Library

structure Disk where
  names : StoreFile -> Option Nat
  contents : Nat -> Content
  count : Nat
  /-- The file each caller is writing, or has written last. -/
  streams : Side -> Option Nat

namespace Disk

def lookup (d : Disk) (f : StoreFile) : Option Content :=
  (d.names f).map d.contents

def files (d : Disk) : Files where
  canonical := d.lookup StoreFile.canonical
  backup := d.lookup StoreFile.backup
  temp := d.lookup StoreFile.temp

def setName (f : StoreFile) (number : Option Nat) (d : Disk) : Disk :=
  { d with names := fun g => if g = f then number else d.names g }

def put (i : Nat) (c : Content) (d : Disk) : Disk :=
  { d with contents := fun j => if j = i then c else d.contents j }

def setStream (who : Side) (i : Nat) (d : Disk) : Disk :=
  { d with streams := fun s => if s = who then some i else d.streams s }

def create (who : Side) (f : StoreFile) (d : Disk) : Disk :=
  { ((d.setName f (some d.count)).put d.count Content.unreadable).setStream who d.count with
    count := d.count + 1 }

def truncate (who : Side) (i : Nat) (d : Disk) : Disk :=
  (d.put i Content.unreadable).setStream who i

def number : StoreFile -> Nat
  | StoreFile.canonical => 0
  | StoreFile.backup => 1
  | StoreFile.temp => 2

def ofFiles (d : Files) : Disk where
  names := fun f => (d.get f).map fun _ => number f
  contents := fun i =>
    ((if i = 0 then d.canonical else if i = 1 then d.backup else d.temp).getD
      Content.unreadable)
  count := 3
  streams := fun _ => none

end Disk

/-- Execute an operation of one of two callers.  What is left of a file that both
have written is anybody's guess. -/
def act (mixed : Content -> Content -> Content) (who : Side) :
    (o : FileOp) -> Disk -> o.Result × Disk
  | FileOp.present f, d => ((d.names f).isSome, d)
  | FileOp.delete f, d => ((d.names f).isSome, d.setName f none)
  | FileOp.renameTo source target, d =>
      match d.names source with
      | some i => (true, (d.setName target (some i)).setName source none)
      | none => (false, d)
  | FileOp.readRaw f, d => (d.lookup f, d)
  | FileOp.openRaw f, d =>
      match d.names f with
      | some i => (true, d.truncate who i)
      | none => (true, d.create who f)
  | FileOp.openEncrypted f, d =>
      match d.names f with
      | some _ => (false, d)
      | none => (true, d.create who f)
  | FileOp.finish _ c, d =>
      match d.streams who with
      | some i =>
          match d.contents i with
          | Content.unreadable => (true, d.put i c)
          | written => (true, d.put i (mixed written c))
      | none => (false, d)
  | FileOp.decrypt f, d => (decode f (d.lookup f), d)

/-- A save that has the disk to itself does what it does to the files. -/
theorem save_alone (mixed : Content -> Content -> Content) (who : Side)
    (conversations : List Conversation) (d : Files) :
    let r := Program.run (fun o (_ : Unit) => act mixed who o) (save conversations) []
      (Disk.ofFiles d)
    r.1 = saveReturns conversations [] d ∧
      r.2.1.files = saveFiles conversations [] d := by
  rcases d with ⟨_ | c, _ | b, t⟩ <;> cases who <;> cases t <;> exact ⟨rfl, rfl⟩

/-!
# What an operation leaves alone
-/

namespace Disk

structure Bounded (d : Disk) : Prop where
  names : forall f i, d.names f = some i -> i < d.count
  streams : forall who i, d.streams who = some i -> i < d.count

/-- A caller has nothing to do with a file: it is not the one it writes, and not the
backup either. -/
structure Apart (who : Side) (i : Nat) (d : Disk) : Prop where
  exists_ : i < d.count
  backup : d.names StoreFile.backup ≠ some i
  stream : d.streams who ≠ some i

theorem bounded_ofFiles (d : Files) : (ofFiles d).Bounded := by
  constructor
  · intro f i h
    rcases Option.map_eq_some_iff.mp h with ⟨_, _, rfl⟩
    cases f <;> simp [number, ofFiles]
  · intro who i h
    cases h

section Bounded

variable {d : Disk}

theorem Bounded.setName (h : d.Bounded) (f : StoreFile) {number : Option Nat}
    (hnumber : forall i, number = some i -> i < d.count) :
    (d.setName f number).Bounded := by
  constructor
  · intro g i hg
    simp only [Disk.setName] at hg
    split at hg
    · exact hnumber i hg
    · exact h.names g i hg
  · exact h.streams

theorem Bounded.put (h : d.Bounded) (i : Nat) (c : Content) : (d.put i c).Bounded :=
  ⟨h.names, h.streams⟩

theorem Bounded.create (h : d.Bounded) (who : Side) (f : StoreFile) :
    (d.create who f).Bounded := by
  constructor
  · intro g i hg
    simp only [Disk.create, Disk.setName, Disk.put, setStream] at hg ⊢
    split at hg
    · cases hg
      exact Nat.lt_succ_self _
    · exact Nat.lt_succ_of_lt (h.names g i hg)
  · intro s i hs
    simp only [Disk.create, Disk.setName, Disk.put, setStream] at hs ⊢
    split at hs
    · cases hs
      exact Nat.lt_succ_self _
    · exact Nat.lt_succ_of_lt (h.streams s i hs)

theorem Bounded.truncate (h : d.Bounded) (who : Side) {f : StoreFile} {i : Nat}
    (hi : d.names f = some i) : (d.truncate who i).Bounded := by
  constructor
  · exact h.names
  · intro s j hs
    simp only [Disk.truncate, Disk.put, setStream] at hs
    split at hs
    · cases hs
      exact h.names f i hi
    · exact h.streams s j hs

end Bounded

end Disk

section Act

variable {mixed : Content -> Content -> Content} {who : Side} {d : Disk}

theorem bounded_act (o : FileOp) (h : d.Bounded) : (act mixed who o d).2.Bounded := by
  cases o with
  | present f => exact h
  | delete f => exact h.setName f (fun i hi => by cases hi)
  | renameTo source target =>
      simp only [act]
      split
      · rename_i i hi
        apply Disk.Bounded.setName
        · apply h.setName
          intro j hj
          cases hj
          exact h.names source i hi
        · intro j hj
          cases hj
      · exact h
  | readRaw f => exact h
  | openRaw f =>
      simp only [act]
      split
      · rename_i i hi
        exact h.truncate who hi
      · exact h.create who f
  | openEncrypted f =>
      simp only [act]
      split
      · exact h
      · exact h.create who f
  | finish f c =>
      simp only [act]
      split
      · split
        · exact h.put _ _
        · exact h.put _ _
      · exact h
  | decrypt f => exact h

theorem act_apart_of_finish (mixed : Content -> Content -> Content) (f : StoreFile)
    (c : Content) {i : Nat}
    (h : d.Apart who i) :
    (act mixed who (FileOp.finish f c) d).2.Apart who i ∧
      (act mixed who (FileOp.finish f c) d).2.contents i = d.contents i := by
  simp only [act]
  split
  · rename_i j hj
    have hne : i ≠ j := by
      rintro rfl
      exact h.stream hj
    split
    · exact ⟨⟨h.exists_, h.backup, h.stream⟩, if_neg hne⟩
    · exact ⟨⟨h.exists_, h.backup, h.stream⟩, if_neg hne⟩
  · exact ⟨h, rfl⟩

theorem act_finish_names {f : StoreFile} {c : Content} :
    (act mixed who (FileOp.finish f c) d).2.names = d.names ∧
      (act mixed who (FileOp.finish f c) d).2.streams = d.streams := by
  simp only [act]
  split
  · split
    · exact ⟨rfl, rfl⟩
    · exact ⟨rfl, rfl⟩
  · exact ⟨rfl, rfl⟩

theorem act_finish_ok {f : StoreFile} {c : Content} {i : Nat}
    (h : d.streams who = some i) : (act mixed who (FileOp.finish f c) d).1 = true := by
  simp only [act, h]
  split <;> rfl

theorem act_streams_other (mixed : Content -> Content -> Content) (who : Side)
    (o : FileOp) (d : Disk) :
    (act mixed who o d).2.streams who.other = d.streams who.other := by
  cases o with
  | openRaw f =>
      simp only [act]
      split
      · simp [Disk.truncate, Disk.put, Disk.setStream]
      · simp [Disk.create, Disk.setName, Disk.put, Disk.setStream]
  | openEncrypted f =>
      simp only [act]
      split
      · rfl
      · simp [Disk.create, Disk.setName, Disk.put, Disk.setStream]
  | renameTo source target =>
      simp only [act]
      split <;> rfl
  | finish f c => exact congrFun act_finish_names.right who.other
  | _ => rfl

def FileOp.isQuiet : FileOp -> Bool
  | FileOp.present _ => true
  | FileOp.delete f => f != StoreFile.canonical
  | FileOp.readRaw _ => true
  | FileOp.openRaw f => f == StoreFile.backup
  | FileOp.finish f _ => f == StoreFile.backup
  | _ => false

theorem act_canonical_of_quiet {o : FileOp} (h : o.isQuiet = true) :
    (act mixed who o d).2.names StoreFile.canonical = d.names StoreFile.canonical := by
  cases o with
  | present f => rfl
  | readRaw f => rfl
  | delete f =>
      cases f with
      | canonical => cases h
      | backup => rfl
      | temp => rfl
  | openRaw f =>
      rw [FileOp.isQuiet, beq_iff_eq] at h
      subst h
      simp only [act]
      split <;> rfl
  | finish f c => exact congrFun act_finish_names.left StoreFile.canonical
  | renameTo source target => cases h
  | openEncrypted f => cases h
  | decrypt f => cases h

theorem act_apart_of_quiet (mixed : Content -> Content -> Content) {o : FileOp}
    {i : Nat} (ho : o.isQuiet = true)
    (h : d.Apart who i) :
    (act mixed who o d).2.Apart who i ∧
      (act mixed who o d).2.contents i = d.contents i := by
  cases o with
  | present f => exact ⟨h, rfl⟩
  | readRaw f => exact ⟨h, rfl⟩
  | delete f =>
      refine ⟨⟨h.exists_, ?_, h.stream⟩, rfl⟩
      simp only [act, Disk.setName]
      split
      · intro hnone
        cases hnone
      · exact h.backup
  | openRaw f =>
      rw [FileOp.isQuiet, beq_iff_eq] at ho
      subst ho
      simp only [act]
      split
      · rename_i j hj
        have hne : i ≠ j := by
          rintro rfl
          exact h.backup hj
        refine ⟨⟨h.exists_, h.backup, ?_⟩, if_neg hne⟩
        simpa [Disk.truncate, Disk.put, Disk.setStream] using Ne.symm hne
      · have hne : i ≠ d.count := Nat.ne_of_lt h.exists_
        refine ⟨⟨Nat.lt_succ_of_lt h.exists_, ?_, ?_⟩, if_neg hne⟩
        · simpa [Disk.create, Disk.setName, Disk.put, Disk.setStream] using Ne.symm hne
        · simpa [Disk.create, Disk.setName, Disk.put, Disk.setStream] using Ne.symm hne
  | finish f c => exact act_apart_of_finish mixed f c h
  | renameTo source target => cases ho
  | openEncrypted f => cases ho
  | decrypt f => cases ho

theorem create_canonical (h : d.Bounded) (who : Side) :
    (d.create who StoreFile.canonical).names StoreFile.canonical = some d.count ∧
      (d.create who StoreFile.canonical).streams who = some d.count ∧
      (d.create who StoreFile.canonical).Apart who.other d.count ∧
      (d.create who StoreFile.canonical).contents d.count = Content.unreadable := by
  refine ⟨rfl, if_pos rfl, ⟨Nat.lt_succ_self _, ?_, ?_⟩, if_pos rfl⟩
  · intro hbackup
    exact Nat.lt_irrefl _ (h.names StoreFile.backup _ hbackup)
  · intro hstream
    simp only [Disk.create, Disk.setStream, Disk.put, Disk.setName,
      if_neg (Side.other_ne who)] at hstream
    exact Nat.lt_irrefl _ (h.streams who.other _ hstream)

end Act

end ConversationStore
end DomainAI
