import DomainAI.Data.CrashSafety
import DomainAI.Data.SharedDisk

/-!
# Overlapping saves

Nothing keeps one save from starting before another one has finished.  What comes
of two of them depends on the order of a few operations on the canonical file.
-/

namespace DomainAI
namespace ConversationStore

open Library

/-!
# The course of a save
-/

inductive Stage where
  | prepares
  | removes
  | creates
  | writes
  | checks
  | reads
  | cleansUp
  | returned
  | failed
  deriving DecidableEq, Repr

namespace Stage

def waits : Stage -> Bool
  | prepares => true
  | removes => true
  | _ => false

def hasCreated : Stage -> Bool
  | writes => true
  | checks => true
  | reads => true
  | cleansUp => true
  | returned => true
  | _ => false

theorem hasCreated_of_waits {stage : Stage} (h : stage.waits = true) :
    stage.hasCreated = false := by
  cases stage with
  | prepares => rfl
  | removes => rfl
  | _ => cases h

end Stage

def newContent (conversations : List Conversation) : Content :=
  Content.sealed StoreFile.canonical conversations

/-- From one stage to the next, by an operation and its result. -/
inductive Moves (conversations : List Conversation) :
    Stage -> (o : FileOp) -> o.Result -> Stage -> Prop where
  | prepare {o : FileOp} {r : o.Result} (ho : o.isQuiet = true) :
      Moves conversations Stage.prepares o r Stage.prepares
  | look {r : Bool} :
      Moves conversations Stage.prepares (FileOp.present StoreFile.canonical) r
        (if r then Stage.removes else Stage.creates)
  | remove {r : Bool} :
      Moves conversations Stage.removes (FileOp.delete StoreFile.canonical) r
        Stage.creates
  | clear {r : Bool} :
      Moves conversations Stage.creates (FileOp.delete StoreFile.temp) r Stage.creates
  | create {r : Bool} :
      Moves conversations Stage.creates (FileOp.openEncrypted StoreFile.canonical) r
        (if r then Stage.writes else Stage.failed)
  | write {r : Bool} :
      Moves conversations Stage.writes
        (FileOp.finish StoreFile.canonical (newContent conversations)) r
        (if r then Stage.checks else Stage.failed)
  | check {r : Bool} :
      Moves conversations Stage.checks (FileOp.present StoreFile.canonical) r
        (if r then Stage.reads else Stage.failed)
  | read {r : Option (List Conversation)} :
      Moves conversations Stage.reads (FileOp.decrypt StoreFile.canonical) r
        (if r.isSome then Stage.cleansUp else Stage.failed)
  | clean {r : Bool} :
      Moves conversations Stage.cleansUp (FileOp.delete StoreFile.backup) r
        Stage.returned
  | fail {o : FileOp} {r : o.Result} :
      Moves conversations Stage.failed o r Stage.failed

inductive Saving (conversations : List Conversation) :
    Stage -> StoreProgram Bool -> Prop where
  | returned : Saving conversations Stage.returned (Program.done true)
  | threw : Saving conversations Stage.failed (Program.done false)
  | perform {stage : Stage} {o : FileOp} {next : o.Result -> StoreProgram Bool}
      (later : o.Result -> Stage) (hmoves : forall r, Moves conversations stage o r (later r))
      (h : forall r, Saving conversations (later r) (next r)) :
      Saving conversations stage (Program.perform o next)

section Saving

variable {conversations : List Conversation} {alpha : Type}

def IsQuiet (p : StoreProgram alpha) : Prop :=
  Program.Obeys (fun o : FileOp => o.isQuiet = true) (fun _ _ => True)
    (fun _ => True) p

theorem saving_of_quiet {p : StoreProgram alpha} {f : alpha -> StoreProgram Bool}
    (hp : IsQuiet p) (hf : forall a, Saving conversations Stage.prepares (f a)) :
    Saving conversations Stage.prepares (p >>= f) := by
  induction p with
  | done a => exact hf a
  | perform o next ih =>
      apply Saving.perform (fun _ => Stage.prepares)
      · intro r
        exact Moves.prepare hp.left
      · intro r
        exact ih r (hp.right r trivial)

theorem saving_failed (p : StoreProgram Unit) :
    Saving conversations Stage.failed (p >>= fun _ => Program.done false) := by
  induction p with
  | done a => exact Saving.threw
  | perform o next ih =>
      exact Saving.perform (fun _ => Stage.failed) (fun _ => Moves.fail) ih

theorem copyTo_quiet : IsQuiet (copyTo StoreFile.canonical StoreFile.backup) := by
  have hcopy : IsQuiet (copyBytes StoreFile.canonical StoreFile.backup) := by
    refine ⟨rfl, fun content _ => ?_⟩
    cases content with
    | none => trivial
    | some c =>
        refine ⟨rfl, fun opened _ => ?_⟩
        exact Program.obeys_ite (fun _ => ⟨rfl, fun _ _ => trivial⟩) (fun _ => trivial)
  have hremove : IsQuiet (removeTarget StoreFile.backup) := by
    refine ⟨rfl, fun overwrites _ => ?_⟩
    exact Program.obeys_ite (fun _ => ⟨rfl, fun _ _ => trivial⟩) (fun _ => trivial)
  refine ⟨rfl, fun exists_ _ => ?_⟩
  apply Program.obeys_ite
  · intro _
    apply Program.obeys_bind hremove
    intro removed _
    exact Program.obeys_ite (fun _ => hcopy) (fun _ => trivial)
  · intro _
    trivial

theorem backUp_quiet : IsQuiet backUp := by
  refine ⟨rfl, fun exists_ _ => ?_⟩
  exact Program.obeys_ite (fun _ => copyTo_quiet) (fun _ => trivial)

theorem readBack_saving (next : Option (List Conversation) -> StoreProgram Bool)
    (hok : forall list, Saving conversations Stage.cleansUp (next (some list)))
    (hno : Saving conversations Stage.failed (next none)) :
    Saving conversations Stage.checks
      (readEncrypted StoreFile.canonical >>= next) := by
  apply Saving.perform (fun r => if r then Stage.reads else Stage.failed)
  · intro r
    exact Moves.check
  · intro r
    cases r with
    | false => exact hno
    | true =>
        apply Saving.perform
          (fun r : Option (List Conversation) =>
            if r.isSome then Stage.cleansUp else Stage.failed)
        · intro r
          exact Moves.read
        · intro r
          cases r with
          | none => exact hno
          | some list => exact hok list

theorem writeVerified_saving :
    Saving conversations Stage.creates (writeVerified conversations) := by
  apply Saving.perform (fun r => if r then Stage.writes else Stage.failed)
  · intro r
    exact Moves.create
  · intro r
    cases r with
    | false => exact saving_failed restoreBackup
    | true =>
        apply Saving.perform (fun r => if r then Stage.checks else Stage.failed)
        · intro r
          exact Moves.write
        · intro r
          cases r with
          | false => exact saving_failed restoreBackup
          | true =>
              apply readBack_saving
              · intro list
                apply Saving.perform (fun _ => Stage.returned)
                · intro r
                  exact Moves.clean
                · intro r
                  exact Saving.returned
              · exact saving_failed restoreBackup

theorem save_saving : Saving conversations Stage.prepares (save conversations) := by
  have hclear : Saving conversations Stage.creates
      (delete StoreFile.temp >>= fun _ => writeVerified conversations) :=
    Saving.perform (fun _ => Stage.creates) (fun _ => Moves.clear)
      (fun _ => writeVerified_saving)
  apply saving_of_quiet backUp_quiet
  intro _
  apply Saving.perform (fun r => if r then Stage.removes else Stage.creates)
  · intro r
    exact Moves.look
  · intro r
    cases r with
    | false => exact hclear
    | true =>
        exact Saving.perform (fun _ => Stage.creates) (fun _ => Moves.remove)
          (fun _ => hclear)

end Saving

/-!
# The order of two saves
-/

/--
One side saves first, and the other side second: the second one removes the file
that the first one has created, and only then creates its own.  Meanwhile the first
one does not look for its file, and it does not read one that is still being written.
-/
structure Orderly (lists : Side -> List Conversation) (first : Side)
    (earlier : List (Side × FileOp)) (e : Side × FileOp) : Prop where
  removes : e = (first.other, FileOp.delete StoreFile.canonical) ->
    (first, FileOp.openEncrypted StoreFile.canonical) ∈ earlier
  creates : e = (first.other, FileOp.openEncrypted StoreFile.canonical) ->
    (first.other, FileOp.delete StoreFile.canonical) ∈ earlier
  checks : e = (first, FileOp.present StoreFile.canonical) ->
    (first.other, FileOp.delete StoreFile.canonical) ∈ earlier ->
      (first.other, FileOp.openEncrypted StoreFile.canonical) ∈ earlier
  reads : e = (first, FileOp.decrypt StoreFile.canonical) ->
    (first.other, FileOp.delete StoreFile.canonical) ∈ earlier ->
      (first.other, FileOp.finish StoreFile.canonical
        (newContent (lists first.other))) ∈ earlier

section Orderly

variable {lists : Side -> List Conversation} {first : Side}
  {log : List (Side × FileOp)} {o : FileOp}

theorem orderly_first_iff : Orderly lists first log (first, o) <->
    (o = FileOp.present StoreFile.canonical ->
      (first.other, FileOp.delete StoreFile.canonical) ∈ log ->
        (first.other, FileOp.openEncrypted StoreFile.canonical) ∈ log) ∧
    (o = FileOp.decrypt StoreFile.canonical ->
      (first.other, FileOp.delete StoreFile.canonical) ∈ log ->
        (first.other, FileOp.finish StoreFile.canonical
          (newContent (lists first.other))) ∈ log) := by
  constructor
  · intro h
    exact ⟨fun ho => h.checks (by rw [ho]), fun ho => h.reads (by rw [ho])⟩
  · intro h
    constructor
    · intro he
      exact absurd (congrArg Prod.fst he) (Side.ne_other first)
    · intro he
      exact absurd (congrArg Prod.fst he) (Side.ne_other first)
    · intro he
      exact h.left (congrArg Prod.snd he)
    · intro he
      exact h.right (congrArg Prod.snd he)

theorem orderly_other_iff : Orderly lists first log (first.other, o) <->
    (o = FileOp.delete StoreFile.canonical ->
      (first, FileOp.openEncrypted StoreFile.canonical) ∈ log) ∧
    (o = FileOp.openEncrypted StoreFile.canonical ->
      (first.other, FileOp.delete StoreFile.canonical) ∈ log) := by
  constructor
  · intro h
    exact ⟨fun ho => h.removes (by rw [ho]), fun ho => h.creates (by rw [ho])⟩
  · intro h
    constructor
    · intro he
      exact h.left (congrArg Prod.snd he)
    · intro he
      exact h.right (congrArg Prod.snd he)
    · intro he
      exact absurd (congrArg Prod.fst he) (Side.other_ne first)
    · intro he
      exact absurd (congrArg Prod.fst he) (Side.other_ne first)

theorem orderly_first_of_ne (hpresent : o ≠ FileOp.present StoreFile.canonical)
    (hdecrypt : o ≠ FileOp.decrypt StoreFile.canonical) :
    Orderly lists first log (first, o) :=
  orderly_first_iff.mpr ⟨fun ho => absurd ho hpresent, fun ho => absurd ho hdecrypt⟩

theorem orderly_other_of_ne (hdelete : o ≠ FileOp.delete StoreFile.canonical)
    (hopen : o ≠ FileOp.openEncrypted StoreFile.canonical) :
    Orderly lists first log (first.other, o) :=
  orderly_other_iff.mpr ⟨fun ho => absurd ho hdelete, fun ho => absurd ho hopen⟩

theorem orderly_first_of_notMem
    (h : (first.other, FileOp.delete StoreFile.canonical) ∉ log) :
    Orderly lists first log (first, o) :=
  orderly_first_iff.mpr ⟨fun _ hdelete => absurd hdelete h, fun _ hdelete => absurd hdelete h⟩

set_option synthInstance.maxSize 1000 in
instance (log : List (Side × FileOp)) (e : Side × FileOp) :
    Decidable (Orderly lists first log e) :=
  decidable_of_iff
    ((e = (first.other, FileOp.delete StoreFile.canonical) ->
        (first, FileOp.openEncrypted StoreFile.canonical) ∈ log) ∧
      (e = (first.other, FileOp.openEncrypted StoreFile.canonical) ->
        (first.other, FileOp.delete StoreFile.canonical) ∈ log) ∧
      (e = (first, FileOp.present StoreFile.canonical) ->
        (first.other, FileOp.delete StoreFile.canonical) ∈ log ->
          (first.other, FileOp.openEncrypted StoreFile.canonical) ∈ log) ∧
      (e = (first, FileOp.decrypt StoreFile.canonical) ->
        (first.other, FileOp.delete StoreFile.canonical) ∈ log ->
          (first.other, FileOp.finish StoreFile.canonical
            (newContent (lists first.other))) ∈ log))
    ⟨fun h => ⟨h.left, h.right.left, h.right.right.left, h.right.right.right⟩,
      fun h => ⟨h.removes, h.creates, h.checks, h.reads⟩⟩

end Orderly

/-!
# What the log tells of a stage
-/

def Noted (conversations : List Conversation) (side : Side)
    (log : List (Side × FileOp)) : Stage -> Prop
  | Stage.prepares =>
      (side, FileOp.delete StoreFile.canonical) ∉ log ∧
        (side, FileOp.openEncrypted StoreFile.canonical) ∉ log ∧
        (side, FileOp.finish StoreFile.canonical (newContent conversations)) ∉ log
  | Stage.removes =>
      (side, FileOp.delete StoreFile.canonical) ∉ log ∧
        (side, FileOp.openEncrypted StoreFile.canonical) ∉ log ∧
        (side, FileOp.finish StoreFile.canonical (newContent conversations)) ∉ log
  | Stage.creates =>
      (side, FileOp.openEncrypted StoreFile.canonical) ∉ log ∧
        (side, FileOp.finish StoreFile.canonical (newContent conversations)) ∉ log
  | Stage.writes =>
      (side, FileOp.openEncrypted StoreFile.canonical) ∈ log ∧
        (side, FileOp.finish StoreFile.canonical (newContent conversations)) ∉ log
  | Stage.failed => True
  | _ =>
      (side, FileOp.openEncrypted StoreFile.canonical) ∈ log ∧
        (side, FileOp.finish StoreFile.canonical (newContent conversations)) ∈ log

section Noted

variable {conversations : List Conversation} {side : Side}
  {log : List (Side × FileOp)} {stage : Stage} {o : FileOp}

theorem mem_concat_other {x : FileOp} :
    (side, x) ∈ log ++ [(side.other, o)] <-> (side, x) ∈ log := by
  simp

theorem mem_concat_self {x : FileOp} :
    (side, x) ∈ log ++ [(side, o)] <-> (side, x) ∈ log ∨ x = o := by
  simp

theorem Noted.other (h : Noted conversations side log stage) :
    Noted conversations side (log ++ [(side.other, o)]) stage := by
  cases stage with
  | failed => trivial
  | _ => simpa only [Noted, mem_concat_other] using h

theorem Noted.moves {stage' : Stage} {r : o.Result}
    (h : Noted conversations side log stage)
    (hmoves : Moves conversations stage o r stage') :
    Noted conversations side (log ++ [(side, o)]) stage' := by
  cases hmoves with
  | prepare ho =>
      simp only [Noted, mem_concat_self, not_or] at h ⊢
      refine ⟨⟨h.left, ?_⟩, ⟨h.right.left, ?_⟩, ⟨h.right.right, ?_⟩⟩
      · rintro rfl
        cases ho
      · rintro rfl
        cases ho
      · rintro rfl
        cases ho
  | @look r =>
      cases r with
      | false => simpa [Noted] using h.right
      | true => simpa [Noted] using h
  | remove => simpa [Noted] using h.right
  | clear => simpa [Noted] using h
  | @create r =>
      cases r with
      | false => trivial
      | true => simpa [Noted] using h.right
  | @write r =>
      cases r with
      | false => trivial
      | true => simpa [Noted] using h.left
  | @check r =>
      cases r with
      | false => trivial
      | true => simpa [Noted] using h
  | @read r =>
      cases r with
      | none => trivial
      | some list => simpa [Noted] using h
  | clean => simpa [Noted] using h
  | fail => trivial

theorem ne_of_quiet (ho : o.isQuiet = true) :
    o ≠ FileOp.delete StoreFile.canonical ∧
      o ≠ FileOp.openEncrypted StoreFile.canonical := by
  constructor
  · rintro rfl
    cases ho
  · rintro rfl
    cases ho

theorem Noted.opened (h : Noted conversations side log stage)
    (hstage : stage.hasCreated = true) :
    (side, FileOp.openEncrypted StoreFile.canonical) ∈ log := by
  cases stage with
  | writes => exact h.left
  | checks => exact h.left
  | reads => exact h.left
  | cleansUp => exact h.left
  | returned => exact h.left
  | _ => cases hstage

theorem Noted.written_iff (h : Noted conversations side log stage)
    (hstage : stage.hasCreated = true) :
    (side, FileOp.finish StoreFile.canonical (newContent conversations)) ∈ log <->
      stage ≠ Stage.writes := by
  cases stage with
  | writes => exact iff_of_false h.right (fun hne => hne rfl)
  | checks => exact iff_of_true h.right (by simp)
  | reads => exact iff_of_true h.right (by simp)
  | cleansUp => exact iff_of_true h.right (by simp)
  | returned => exact iff_of_true h.right (by simp)
  | _ => cases hstage

theorem Noted.unopened (h : Noted conversations side log stage)
    (hstage : stage.waits = true ∨ stage = Stage.creates) :
    (side, FileOp.openEncrypted StoreFile.canonical) ∉ log := by
  cases stage with
  | prepares => exact h.right.left
  | removes => exact h.right.left
  | creates => exact h.left
  | _ => rcases hstage with hstage | hstage <;> cases hstage

theorem Noted.unremoved (h : Noted conversations side log stage)
    (hstage : stage.waits = true) :
    (side, FileOp.delete StoreFile.canonical) ∉ log := by
  cases stage with
  | prepares => exact h.left
  | removes => exact h.left
  | _ => cases hstage

end Noted

/-!
# The canonical file
-/

/-- The canonical file is the one that a side has created, and the other side has
nothing to do with it. -/
structure Holds (conversations : List Conversation) (side : Side) (stage : Stage)
    (d : Disk) (i : Nat) : Prop where
  name : d.names StoreFile.canonical = some i
  stream : d.streams side = some i
  apart : d.Apart side.other i
  content : d.contents i =
    if stage = Stage.writes then Content.unreadable else newContent conversations

section Holds

variable {mixed : Content -> Content -> Content} {conversations other : List Conversation}
  {side : Side} {stage stage' : Stage} {d : Disk} {i : Nat} {o : FileOp}

/-- Whoever holds the canonical file gets on with its save. -/
theorem Holds.own (h : Holds conversations side stage d i)
    (hstage : stage.hasCreated = true)
    (hmoves : Moves conversations stage o (act mixed side o d).1 stage') :
    stage'.hasCreated = true ∧ Holds conversations side stage' (act mixed side o d).2 i := by
  generalize hr : act mixed side o d = r at hmoves ⊢
  rcases h with ⟨hname, hstream, hapart, hcontent⟩
  cases hmoves with
  | prepare ho => cases hstage
  | look => cases hstage
  | remove => cases hstage
  | clear => cases hstage
  | create => cases hstage
  | fail => cases hstage
  | write =>
      rw [if_pos rfl] at hcontent
      simp only [act, hstream, hcontent] at hr
      subst hr
      exact ⟨rfl, hname, hstream, ⟨hapart.exists_, hapart.backup, hapart.stream⟩,
        if_pos rfl⟩
  | check =>
      simp only [act, hname] at hr
      subst hr
      exact ⟨rfl, hname, hstream, hapart, hcontent⟩
  | read =>
      rw [if_neg (by simp)] at hcontent
      simp only [act, Disk.lookup, hname, Option.map_some, hcontent] at hr
      subst hr
      exact ⟨rfl, hname, hstream, hapart, hcontent⟩
  | clean =>
      simp only [act] at hr
      subst hr
      refine ⟨rfl, hname, hstream, ⟨hapart.exists_, ?_, hapart.stream⟩, hcontent⟩
      intro hnone
      cases hnone

/-- The other side cannot spoil it unless it removes the file. -/
theorem Holds.keeps {who : Side} {r : o.Result} (h : Holds conversations side stage d i)
    (hwho : who = side.other) {before after : Stage}
    (hmoves : Moves other before o r after) (hfailed : before ≠ Stage.failed)
    (hdelete : o ≠ FileOp.delete StoreFile.canonical) :
    Holds conversations side stage (act mixed who o d).2 i := by
  subst hwho
  rcases h with ⟨hname, hstream, hapart, hcontent⟩
  have hquiet : o.isQuiet = true ->
      Holds conversations side stage (act mixed side.other o d).2 i := by
    intro ho
    rcases act_apart_of_quiet mixed ho hapart with ⟨hapart', hcontent'⟩
    refine ⟨(act_canonical_of_quiet ho).trans hname, ?_, hapart', hcontent'.trans hcontent⟩
    have hother := act_streams_other mixed side.other o d
    rw [Side.other_other] at hother
    exact hother.trans hstream
  cases hmoves with
  | prepare ho => exact hquiet ho
  | look => exact hquiet rfl
  | remove => exact absurd rfl hdelete
  | clear => exact hquiet rfl
  | create =>
      simp only [act, hname]
      exact ⟨hname, hstream, hapart, hcontent⟩
  | write =>
      rcases act_apart_of_finish mixed StoreFile.canonical (newContent other)
        hapart with ⟨hapart', hcontent'⟩
      refine ⟨?_, ?_, hapart', hcontent'.trans hcontent⟩
      · rw [act_finish_names.left]
        exact hname
      · rw [act_finish_names.right]
        exact hstream
  | check => exact hquiet rfl
  | read => exact ⟨hname, hstream, hapart, hcontent⟩
  | clean => exact hquiet rfl
  | fail => exact absurd rfl hfailed

theorem holds_create (mixed : Content -> Content -> Content)
    (conversations : List Conversation) (side : Side) (h : d.Bounded)
    (hnone : d.names StoreFile.canonical = none) :
    (act mixed side (FileOp.openEncrypted StoreFile.canonical) d).1 = true ∧
      Holds conversations side Stage.writes
        (act mixed side (FileOp.openEncrypted StoreFile.canonical) d).2 d.count := by
  simp only [act, hnone]
  rcases create_canonical h side with ⟨hname, hstream, hapart, hcontent⟩
  exact ⟨trivial, hname, hstream, hapart, hcontent⟩

theorem not_create (hsome : d.names StoreFile.canonical ≠ none) :
    act mixed side (FileOp.openEncrypted StoreFile.canonical) d = (false, d) := by
  cases hname : d.names StoreFile.canonical with
  | none => exact absurd hname hsome
  | some i => simp only [act, hname]

/-- Once it has created its file, a save leaves names and streams alone, apart from
the name of the backup. -/
theorem Moves.spares {r : o.Result} (hmoves : Moves conversations stage o r stage')
    (mixed : Content -> Content -> Content) (hstage : stage.hasCreated = true)
    (who : Side) (d : Disk) :
    (stage'.hasCreated = true ∨ stage' = Stage.failed) ∧
      (act mixed who o d).2.names StoreFile.canonical = d.names StoreFile.canonical ∧
      (act mixed who o d).2.streams = d.streams := by
  cases hmoves with
  | prepare ho => cases hstage
  | look => cases hstage
  | remove => cases hstage
  | clear => cases hstage
  | create => cases hstage
  | fail => cases hstage
  | @write r =>
      refine ⟨?_, congrFun act_finish_names.left _, act_finish_names.right⟩
      cases r with
      | false => exact Or.inr rfl
      | true => exact Or.inl rfl
  | @check r =>
      refine ⟨?_, rfl, rfl⟩
      cases r with
      | false => exact Or.inr rfl
      | true => exact Or.inl rfl
  | @read r =>
      refine ⟨?_, rfl, rfl⟩
      cases r with
      | none => exact Or.inr rfl
      | some list => exact Or.inl rfl
  | clean => exact ⟨Or.inl rfl, rfl, rfl⟩

end Holds

/-!
# How two saves stand to each other
-/

/-- All is well so far: the first save is ahead of the second one, and the canonical
file is the first one's until the second one removes it. -/
inductive Good (lists : Side -> List Conversation) (first : Side)
    (log : List (Side × FileOp)) (d : Disk) : Stage -> Stage -> Prop where
  | waiting {stage stage' : Stage} (hfirst : stage.waits = true)
      (hother : stage'.waits = true) : Good lists first log d stage stage'
  | vacant {stage' : Stage} (hother : stage'.waits = true)
      (hnone : d.names StoreFile.canonical = none) :
      Good lists first log d Stage.creates stage'
  | held {stage stage' : Stage} {i : Nat} (hfirst : stage.hasCreated = true)
      (hother : stage'.waits = true) (h : Holds (lists first) first stage d i) :
      Good lists first log d stage stage'
  | removed {stage : Stage} {i : Nat} (hfirst : stage.hasCreated = true)
      (hnone : d.names StoreFile.canonical = none) (hstream : d.streams first = some i)
      (hlog : (first.other, FileOp.delete StoreFile.canonical) ∈ log) :
      Good lists first log d stage Stage.creates
  | replaced {stage stage' : Stage} {i j : Nat} (hfirst : stage.hasCreated = true)
      (hother : stage'.hasCreated = true)
      (h : Holds (lists first.other) first.other stage' d i)
      (hstream : d.streams first = some j)
      (hlog : (first.other, FileOp.delete StoreFile.canonical) ∈ log) :
      Good lists first log d stage stage'

/-- The second save has found nothing to remove, and will create its file too soon or
not at all. -/
structure Doomed (first : Side) (log : List (Side × FileOp)) (d : Disk)
    (stage stage' : Stage) : Prop where
  creates : stage' = Stage.creates
  unremoved : (first.other, FileOp.delete StoreFile.canonical) ∉ log
  taken : stage.hasCreated = true -> d.names StoreFile.canonical ≠ none

inductive Bad (first : Side) (d : Disk) : Stage -> Stage -> Prop where
  | failedFirst {stage' : Stage} : Bad first d Stage.failed stage'
  | failedOther {stage : Stage} : Bad first d stage Stage.failed
  | ahead {stage stage' : Stage}
      (hfirst : stage.waits = true ∨ stage = Stage.creates)
      (hother : stage' = Stage.creates ∨ stage'.hasCreated = true) :
      Bad first d stage stage'
  | blocked {stage : Stage} (hfirst : stage.hasCreated = true)
      (htaken : d.names StoreFile.canonical ≠ none) :
      Bad first d stage Stage.creates
  | overtaken {stage stage' : Stage} {i : Nat} (hfirst : stage.hasCreated = true)
      (hother : stage'.hasCreated = true)
      (hname : d.names StoreFile.canonical = some i)
      (hstream : d.streams first = some i) (hapart : d.streams first.other ≠ some i) :
      Bad first d stage stage'

section Steps

variable {mixed : Content -> Content -> Content} {lists : Side -> List Conversation}
  {first : Side} {log : List (Side × FileOp)} {d : Disk} {stage stage' next : Stage}
  {o : FileOp}

theorem good_first (h : Good lists first log d stage stage') (hbounded : d.Bounded)
    (hnoted : Noted (lists first.other) first.other log stage')
    (hmoves : Moves (lists first) stage o (act mixed first o d).1 next) :
    (Orderly lists first log (first, o) ∧
        Good lists first (log ++ [(first, o)]) (act mixed first o d).2 next stage') ∨
      (¬ Orderly lists first log (first, o) ∧
        Bad first (act mixed first o d).2 next stage') := by
  generalize hr : (act mixed first o d).1 = r at hmoves
  cases h with
  | waiting hfirst hother =>
      apply Or.inl
      refine ⟨orderly_first_of_notMem (hnoted.unremoved hother), ?_⟩
      cases hmoves with
      | prepare ho => exact Good.waiting rfl hother
      | look =>
          cases hname : d.names StoreFile.canonical with
          | none =>
              simp only [act, hname] at hr
              subst hr
              exact Good.vacant hother hname
          | some i =>
              simp only [act, hname] at hr
              subst hr
              exact Good.waiting rfl hother
      | remove => exact Good.vacant hother rfl
      | _ => cases hfirst
  | vacant hother hnone =>
      apply Or.inl
      refine ⟨orderly_first_of_notMem (hnoted.unremoved hother), ?_⟩
      cases hmoves with
      | clear => exact Good.vacant hother hnone
      | create =>
          rcases holds_create mixed (lists first) first hbounded hnone with ⟨hok, hholds⟩
          rw [hok] at hr
          subst hr
          exact Good.held rfl hother hholds
  | held hfirst hother hholds =>
      apply Or.inl
      refine ⟨orderly_first_of_notMem (hnoted.unremoved hother), ?_⟩
      subst hr
      rcases hholds.own hfirst hmoves with ⟨hnext, hholds'⟩
      exact Good.held hnext hother hholds'
  | removed hfirst hnone hstream hlog =>
      have hlog' := List.mem_append_left [(first, o)] hlog
      rcases hmoves.spares mixed hfirst first d with ⟨_, hname, hstreams⟩
      rw [hnone] at hname
      cases hmoves with
      | write =>
          rw [act_finish_ok hstream] at hr
          subst hr
          rw [<- hstreams] at hstream
          exact Or.inl ⟨orderly_first_of_ne (by simp) (by simp),
            Good.removed rfl hname hstream hlog'⟩
      | check =>
          simp only [act, hnone] at hr
          subst hr
          apply Or.inr
          constructor
          · intro h
            exact hnoted.left ((orderly_first_iff.mp h).left rfl hlog)
          · exact Bad.failedFirst
      | read =>
          simp only [act, Disk.lookup, hnone, Option.map_none] at hr
          subst hr
          apply Or.inr
          constructor
          · intro h
            exact hnoted.right ((orderly_first_iff.mp h).right rfl hlog)
          · exact Bad.failedFirst
      | clean =>
          exact Or.inl ⟨orderly_first_of_ne (by simp) (by simp),
            Good.removed rfl hname hstream hlog'⟩
      | _ => cases hfirst
  | replaced hfirst hother hholds hstream hlog =>
      have hlog' := List.mem_append_left [(first, o)] hlog
      have hholds' : o ≠ FileOp.delete StoreFile.canonical ->
          Holds (lists first.other) first.other stage' (act mixed first o d).2 _ :=
        hholds.keeps (Side.other_other first).symm hmoves (by rintro rfl; cases hfirst)
      rcases hmoves.spares mixed hfirst first d with ⟨_, _, hstreams⟩
      cases hmoves with
      | write =>
          rw [act_finish_ok hstream] at hr
          subst hr
          rw [<- hstreams] at hstream
          exact Or.inl ⟨orderly_first_of_ne (by simp) (by simp),
            Good.replaced rfl hother (hholds' (by simp)) hstream hlog'⟩
      | check =>
          simp only [act, hholds.name] at hr
          subst hr
          exact Or.inl ⟨orderly_first_iff.mpr ⟨fun _ _ => hnoted.opened hother,
            fun ho => by cases ho⟩, Good.replaced rfl hother hholds hstream hlog'⟩
      | read =>
          have hcontent := hholds.content
          simp only [act, Disk.lookup, hholds.name, Option.map_some, hcontent] at hr
          by_cases hwrites : stage' = Stage.writes
          · rw [if_pos hwrites] at hr
            subst hr
            apply Or.inr
            constructor
            · intro h
              exact (hnoted.written_iff hother).mp
                ((orderly_first_iff.mp h).right rfl hlog) hwrites
            · exact Bad.failedFirst
          · rw [if_neg hwrites] at hr
            subst hr
            exact Or.inl ⟨orderly_first_iff.mpr ⟨(fun ho => by cases ho),
              fun _ _ => (hnoted.written_iff hother).mpr hwrites⟩,
              Good.replaced rfl hother hholds hstream hlog'⟩
      | clean =>
          exact Or.inl ⟨orderly_first_of_ne (by simp) (by simp),
            Good.replaced rfl hother (hholds' (by simp)) hstream hlog'⟩
      | _ => cases hfirst

theorem good_other (h : Good lists first log d stage stage') (hbounded : d.Bounded)
    (hnoted : Noted (lists first) first log stage)
    (hother : Noted (lists first.other) first.other log stage')
    (hmoves : Moves (lists first.other) stage' o (act mixed first.other o d).1 next) :
    (Orderly lists first log (first.other, o) ∧
        (Good lists first (log ++ [(first.other, o)]) (act mixed first.other o d).2
            stage next ∨
          Doomed first (log ++ [(first.other, o)]) (act mixed first.other o d).2
            stage next)) ∨
      (¬ Orderly lists first log (first.other, o) ∧
        Bad first (act mixed first.other o d).2 stage next) := by
  generalize hr : (act mixed first.other o d).1 = r at hmoves
  cases h with
  | waiting hfirst hwaits =>
      cases hmoves with
      | prepare ho =>
          exact Or.inl ⟨orderly_other_of_ne (ne_of_quiet ho).left (ne_of_quiet ho).right,
            Or.inl (Good.waiting hfirst rfl)⟩
      | @look r =>
          apply Or.inl
          refine ⟨orderly_other_of_ne (by simp) (by simp), ?_⟩
          cases r with
          | true => exact Or.inl (Good.waiting hfirst rfl)
          | false =>
              apply Or.inr
              constructor
              · rfl
              · rw [mem_concat_self]
                exact fun hmem => hmem.elim hother.left (by simp)
              · intro hcreated
                rw [Stage.hasCreated_of_waits hfirst] at hcreated
                cases hcreated
      | remove =>
          apply Or.inr
          constructor
          · intro h
            exact hnoted.unopened (Or.inl hfirst) ((orderly_other_iff.mp h).left rfl)
          · exact Bad.ahead (Or.inl hfirst) (Or.inl rfl)
      | _ => cases hwaits
  | vacant hwaits hnone =>
      cases hmoves with
      | prepare ho =>
          refine Or.inl ⟨orderly_other_of_ne (ne_of_quiet ho).left (ne_of_quiet ho).right,
            Or.inl (Good.vacant rfl ?_)⟩
          exact (act_canonical_of_quiet ho).trans hnone
      | look =>
          simp only [act, hnone] at hr
          subst hr
          apply Or.inl
          refine ⟨orderly_other_of_ne (by simp) (by simp), Or.inr ⟨rfl, ?_, ?_⟩⟩
          · rw [mem_concat_self]
            exact fun hmem => hmem.elim hother.left (by simp)
          · intro hcreated
            cases hcreated
      | remove =>
          apply Or.inr
          constructor
          · intro h
            exact hnoted.unopened (Or.inr rfl) ((orderly_other_iff.mp h).left rfl)
          · exact Bad.ahead (Or.inr rfl) (Or.inl rfl)
      | _ => cases hwaits
  | held hfirst hwaits hholds =>
      have hholds' : o ≠ FileOp.delete StoreFile.canonical ->
          Holds (lists first) first stage (act mixed first.other o d).2 _ :=
        hholds.keeps rfl hmoves (by rintro rfl; cases hwaits)
      cases hmoves with
      | prepare ho =>
          exact Or.inl ⟨orderly_other_of_ne (ne_of_quiet ho).left (ne_of_quiet ho).right,
            Or.inl (Good.held hfirst rfl (hholds' (ne_of_quiet ho).left))⟩
      | look =>
          simp only [act, hholds.name] at hr
          subst hr
          exact Or.inl ⟨orderly_other_of_ne (by simp) (by simp),
            Or.inl (Good.held hfirst rfl hholds)⟩
      | remove =>
          refine Or.inl ⟨orderly_other_iff.mpr ⟨fun _ => hnoted.opened hfirst,
            fun ho => by cases ho⟩, Or.inl ?_⟩
          exact Good.removed hfirst rfl hholds.stream
            (List.mem_append_right _ (List.mem_singleton_self _))
      | _ => cases hwaits
  | removed hfirst hnone hstream hlog =>
      have hlog' := List.mem_append_left [(first.other, o)] hlog
      cases hmoves with
      | clear =>
          exact Or.inl ⟨orderly_other_of_ne (by simp) (by simp),
            Or.inl (Good.removed hfirst hnone hstream hlog')⟩
      | create =>
          rcases holds_create mixed (lists first.other) first.other hbounded hnone with
            ⟨hok, hholds⟩
          rw [hok] at hr
          subst hr
          have hstreams := act_streams_other mixed first.other
            (FileOp.openEncrypted StoreFile.canonical) d
          rw [Side.other_other] at hstreams
          exact Or.inl ⟨orderly_other_iff.mpr ⟨(fun ho => by cases ho), fun _ => hlog⟩,
            Or.inl (Good.replaced hfirst rfl hholds (hstreams.trans hstream) hlog')⟩
  | replaced hfirst hcreated hholds hstream hlog =>
      have hlog' := List.mem_append_left [(first.other, o)] hlog
      rcases hmoves.spares mixed hcreated first.other d with ⟨_, _, hstreams⟩
      have horderly : Orderly lists first log (first.other, o) := by
        cases hmoves with
        | prepare ho => cases hcreated
        | remove => cases hcreated
        | create => cases hcreated
        | fail => cases hcreated
        | _ => exact orderly_other_of_ne (by simp) (by simp)
      subst hr
      rcases hholds.own hcreated hmoves with ⟨hnext, hholds'⟩
      rw [<- hstreams] at hstream
      exact Or.inl ⟨horderly, Or.inl (Good.replaced hfirst hnext hholds' hstream hlog')⟩

theorem doomed_first (h : Doomed first log d stage stage')
    (hmoves : Moves (lists first) stage o (act mixed first o d).1 next) :
    Orderly lists first log (first, o) ∧
      Doomed first (log ++ [(first, o)]) (act mixed first o d).2 next stage' := by
  generalize hr : (act mixed first o d).1 = r at hmoves
  refine ⟨orderly_first_of_notMem h.unremoved, h.creates, ?_, ?_⟩
  · intro hmem
    exact h.unremoved (by simpa using hmem)
  · intro hnext
    by_cases hstage : stage.hasCreated = true
    · rw [(hmoves.spares mixed hstage first d).right.left]
      exact h.taken hstage
    · cases hmoves with
      | prepare ho => cases hnext
      | look => split at hnext <;> cases hnext
      | remove => cases hnext
      | clear => cases hnext
      | fail => cases hnext
      | create =>
          cases hname : d.names StoreFile.canonical with
          | none =>
              simp only [act, hname]
              intro hnone
              cases hnone
          | some i =>
              simp only [act, hname] at hr
              subst hr
              cases hnext
      | _ => exact absurd rfl hstage

theorem doomed_other (h : Doomed first log d stage stage')
    (hmoves : Moves (lists first.other) stage' o (act mixed first.other o d).1 next) :
    (Orderly lists first log (first.other, o) ∧
        Doomed first (log ++ [(first.other, o)]) (act mixed first.other o d).2 stage next) ∨
      (¬ Orderly lists first log (first.other, o) ∧
        Bad first (act mixed first.other o d).2 stage next) := by
  generalize hr : (act mixed first.other o d).1 = r at hmoves
  rcases h with ⟨hcreates, hunremoved, htaken⟩
  cases hcreates
  cases hmoves with
  | clear =>
      refine Or.inl ⟨orderly_other_of_ne (by simp) (by simp), rfl, ?_, htaken⟩
      rw [mem_concat_self]
      exact fun hmem => hmem.elim hunremoved (by simp)
  | @create r =>
      apply Or.inr
      constructor
      · intro h
        exact hunremoved ((orderly_other_iff.mp h).right rfl)
      · cases r with
        | false => exact Bad.failedOther
        | true =>
            by_cases hstage : stage.hasCreated = true
            · rw [not_create (htaken hstage)] at hr
              cases hr
            · cases stage with
              | prepares => exact Bad.ahead (Or.inl rfl) (Or.inr rfl)
              | removes => exact Bad.ahead (Or.inl rfl) (Or.inr rfl)
              | creates => exact Bad.ahead (Or.inr rfl) (Or.inr rfl)
              | failed => exact Bad.failedFirst
              | _ => exact absurd rfl hstage

theorem bad_first (h : Bad first d stage stage') (hbounded : d.Bounded)
    (hmoves : Moves (lists first) stage o (act mixed first o d).1 next) :
    Bad first (act mixed first o d).2 next stage' := by
  generalize hr : (act mixed first o d).1 = r at hmoves
  cases h with
  | failedFirst =>
      cases hmoves
      exact Bad.failedFirst
  | failedOther => exact Bad.failedOther
  | ahead hfirst hother =>
      cases hmoves with
      | prepare ho => exact Bad.ahead (Or.inl rfl) hother
      | @look r =>
          cases r with
          | true => exact Bad.ahead (Or.inl rfl) hother
          | false => exact Bad.ahead (Or.inr rfl) hother
      | remove => exact Bad.ahead (Or.inr rfl) hother
      | clear => exact Bad.ahead (Or.inr rfl) hother
      | fail => exact Bad.failedFirst
      | create =>
          by_cases hnone : d.names StoreFile.canonical = none
          · rcases holds_create mixed (lists first) first hbounded hnone with
              ⟨hok, hholds⟩
            rw [hok] at hr
            subst hr
            rcases hother with rfl | hother
            · apply Bad.blocked rfl
              rw [hholds.name]
              exact Option.some_ne_none _
            · exact Bad.overtaken rfl hother hholds.name hholds.stream hholds.apart.stream
          · rw [not_create hnone] at hr
            subst hr
            exact Bad.failedFirst
      | _ => rcases hfirst with hfirst | hfirst <;> cases hfirst
  | blocked hfirst htaken =>
      rcases hmoves.spares mixed hfirst first d with ⟨hnext, hname, _⟩
      rcases hnext with hnext | rfl
      · rw [<- hname] at htaken
        exact Bad.blocked hnext htaken
      · exact Bad.failedFirst
  | overtaken hfirst hother hname hstream hapart =>
      rcases hmoves.spares mixed hfirst first d with ⟨hnext, hname', hstreams⟩
      rcases hnext with hnext | rfl
      · rw [<- hname'] at hname
        rw [<- hstreams] at hstream hapart
        exact Bad.overtaken hnext hother hname hstream hapart
      · exact Bad.failedFirst

theorem bad_other (h : Bad first d stage stage')
    (hmoves : Moves (lists first.other) stage' o (act mixed first.other o d).1 next) :
    Bad first (act mixed first.other o d).2 stage next := by
  generalize hr : (act mixed first.other o d).1 = r at hmoves
  cases h with
  | failedFirst => exact Bad.failedFirst
  | failedOther =>
      cases hmoves
      exact Bad.failedOther
  | ahead hfirst hother =>
      rcases hother with rfl | hother
      · cases hmoves with
        | clear => exact Bad.ahead hfirst (Or.inl rfl)
        | @create r =>
            cases r with
            | true => exact Bad.ahead hfirst (Or.inr rfl)
            | false => exact Bad.failedOther
      · rcases hmoves.spares mixed hother first.other d with ⟨hnext, _, _⟩
        rcases hnext with hnext | rfl
        · exact Bad.ahead hfirst (Or.inr hnext)
        · exact Bad.failedOther
  | blocked hfirst htaken =>
      cases hmoves with
      | clear => exact Bad.blocked hfirst htaken
      | create =>
          rw [not_create htaken] at hr
          subst hr
          exact Bad.failedOther
  | overtaken hfirst hother hname hstream hapart =>
      rcases hmoves.spares mixed hother first.other d with
        ⟨hnext, hname', hstreams⟩
      rcases hnext with hnext | rfl
      · rw [<- hname'] at hname
        rw [<- hstreams] at hstream hapart
        exact Bad.overtaken hfirst hnext hname hstream hapart
      · exact Bad.failedOther

end Steps

/-!
# Two saves
-/

abbrev Saves := Interleaved FileOp FileOp.Result Bool Disk

def start (lists : Side -> List Conversation) (d : Files) : Saves where
  program := fun side => save (lists side)
  state := Disk.ofFiles d

/-- Neither save throws, and the next load returns the list of the later one. -/
def KeepsLater (lists : Side -> List Conversation) (later : Side) (p : Saves) : Prop :=
  p.returned later.other = some true ∧ p.returned later = some true ∧
    loadResult p.state.files = lists later

def Standing (lists : Side -> List Conversation) (first : Side) (p : Saves) : Prop :=
  p.state.Bounded ∧ exists stage stage',
    Saving (lists first) stage (p.program first) ∧
    Saving (lists first.other) stage' (p.program first.other) ∧
    Noted (lists first) first p.log stage ∧
    Noted (lists first.other) first.other p.log stage' ∧
    (Follows (Orderly lists first) p.log ∧
        (Good lists first p.log p.state stage stage' ∨
          Doomed first p.log p.state stage stage') ∨
      ¬ Follows (Orderly lists first) p.log ∧ Bad first p.state stage stage')

instance (lists : Side -> List Conversation) (later : Side) (p : Saves) :
    Decidable (KeepsLater lists later p) :=
  inferInstanceAs (Decidable (_ ∧ _))

section Saves

variable {mixed : Content -> Content -> Content} {lists : Side -> List Conversation}
  {first : Side} {p : Saves}

theorem standing_start (d : Files) : Standing lists first (start lists d) := by
  refine ⟨Disk.bounded_ofFiles d, Stage.prepares, Stage.prepares, save_saving,
    save_saving, ?_, ?_, Or.inl ⟨follows_nil, Or.inl (Good.waiting rfl rfl)⟩⟩
  · simp [Noted, start]
  · simp [Noted, start]

theorem Saving.step {conversations : List Conversation} {stage : Stage} {o : FileOp}
    {next : o.Result -> StoreProgram Bool}
    (h : Saving conversations stage (Program.perform o next)) (r : o.Result) :
    exists stage', Moves conversations stage o r stage' ∧
      Saving conversations stage' (next r) := by
  cases h with
  | perform later hmoves hsaving => exact ⟨later r, hmoves r, hsaving r⟩

theorem standing_first (h : Standing lists first p) {o : FileOp}
    {next : o.Result -> StoreProgram Bool}
    (hprogram : p.program first = Program.perform o next) :
    Standing lists first (p.after (act mixed) first o next) := by
  rcases h with ⟨hbounded, stage, stage', hsaving, hsaving', hnoted, hnoted', hstand⟩
  rw [hprogram] at hsaving
  rcases hsaving.step (act mixed first o p.state).1 with ⟨stage₁, hmoves, hsaving₁⟩
  refine ⟨bounded_act o hbounded, stage₁, stage', ?_, ?_, hnoted.moves hmoves, ?_, ?_⟩
  · simpa using hsaving₁
  · simpa using hsaving'
  · have hother := hnoted'.other (o := o)
    rwa [Side.other_other] at hother
  · simp only [Interleaved.after, follows_concat]
    rcases hstand with ⟨hfollows, hgood | hdoomed⟩ | ⟨hfollows, hbad⟩
    · rcases good_first hgood hbounded hnoted' hmoves with ⟨ho, hgood'⟩ | ⟨ho, hbad⟩
      · exact Or.inl ⟨⟨hfollows, ho⟩, Or.inl hgood'⟩
      · exact Or.inr ⟨fun h => ho h.right, hbad⟩
    · rcases doomed_first hdoomed hmoves with ⟨ho, hdoomed'⟩
      exact Or.inl ⟨⟨hfollows, ho⟩, Or.inr hdoomed'⟩
    · exact Or.inr ⟨fun h => hfollows h.left, bad_first hbad hbounded hmoves⟩

theorem standing_other (h : Standing lists first p) {o : FileOp}
    {next : o.Result -> StoreProgram Bool}
    (hprogram : p.program first.other = Program.perform o next) :
    Standing lists first (p.after (act mixed) first.other o next) := by
  rcases h with ⟨hbounded, stage, stage', hsaving, hsaving', hnoted, hnoted', hstand⟩
  rw [hprogram] at hsaving'
  rcases hsaving'.step (act mixed first.other o p.state).1 with
    ⟨stage₁, hmoves, hsaving₁⟩
  refine ⟨bounded_act o hbounded, stage, stage₁, ?_, ?_, hnoted.other,
    hnoted'.moves hmoves, ?_⟩
  · simpa [Interleaved.after] using hsaving
  · simpa using hsaving₁
  · simp only [Interleaved.after, follows_concat]
    rcases hstand with ⟨hfollows, hgood | hdoomed⟩ | ⟨hfollows, hbad⟩
    · rcases good_other hgood hbounded hnoted hnoted' hmoves with
        ⟨ho, hgood'⟩ | ⟨ho, hbad⟩
      · exact Or.inl ⟨⟨hfollows, ho⟩, hgood'⟩
      · exact Or.inr ⟨fun h => ho h.right, hbad⟩
    · rcases doomed_other hdoomed hmoves with ⟨ho, hdoomed'⟩ | ⟨ho, hbad⟩
      · exact Or.inl ⟨⟨hfollows, ho⟩, Or.inr hdoomed'⟩
      · exact Or.inr ⟨fun h => ho h.right, hbad⟩
    · exact Or.inr ⟨fun h => hfollows h.left, bad_other hbad hmoves⟩

theorem standing_run {d : Files} {schedule : List Side}
    (hrun : runEvents (Interleaved.step (act mixed)) (start lists d) schedule = some p) :
    Standing lists first p := by
  refine Interleaved.invariant ?_ (standing_start d) hrun
  intro q side o next hq hprogram
  rcases Side.eq_or_eq_other first side with rfl | rfl
  · exact standing_first hq hprogram
  · exact standing_other hq hprogram

end Saves

/-!
# The end
-/

theorem Saving.ends {conversations : List Conversation} {stage : Stage} {b : Bool}
    (h : Saving conversations stage (Program.done b)) :
    b = true ∧ stage = Stage.returned ∨ b = false ∧ stage = Stage.failed := by
  cases h with
  | returned => exact Or.inl ⟨rfl, rfl⟩
  | threw => exact Or.inr ⟨rfl, rfl⟩

/-- The file that a finished save holds is what the next load returns. -/
theorem Holds.loadResult {conversations : List Conversation} {side : Side} {d : Disk}
    {i : Nat} (h : Holds conversations side Stage.returned d i) :
    loadResult d.files = conversations := by
  have hcanonical : d.files.canonical = some (newContent conversations) := by
    change (d.names StoreFile.canonical).map d.contents = _
    rw [h.name, Option.map_some, h.content]
    rfl
  rw [loadResult_eq_held, held, hcanonical]
  rfl

section Ends

variable {lists : Side -> List Conversation} {first : Side} {p : Saves}

theorem program_of_returned {side : Side} {b : Bool} (h : p.returned side = some b) :
    p.program side = Program.done b := by
  unfold Interleaved.returned at h
  split at h
  · cases h
    assumption
  · cases h

/-- An orderly interleaving ends with the other side's list. -/
theorem keepsLater_of_follows (h : Standing lists first p)
    (hends : p.ended = true)
    (hfollows : Follows (Orderly lists first) p.log) :
    KeepsLater lists first.other p := by
  rcases h with ⟨_, stage, stage', hsaving, hsaving', _, _, hstand⟩
  rcases Interleaved.exists_returned hends first with ⟨b, hb⟩
  rcases Interleaved.exists_returned hends first.other with ⟨b', hb'⟩
  rw [program_of_returned hb] at hsaving
  rw [program_of_returned hb'] at hsaving'
  rcases hstand with ⟨_, hgood | hdoomed⟩ | ⟨hnot, _⟩
  · rcases hsaving.ends with ⟨rfl, rfl⟩ | ⟨rfl, rfl⟩
    · cases hgood with
      | waiting hfirst hother => cases hfirst
      | held hfirst hother hholds =>
          rcases hsaving'.ends with ⟨_, rfl⟩ | ⟨_, rfl⟩ <;> cases hother
      | removed hfirst hnone hstream hlog =>
          rcases hsaving'.ends with ⟨_, h⟩ | ⟨_, h⟩ <;> cases h
      | replaced hfirst hother hholds hstream hlog =>
          rcases hsaving'.ends with ⟨rfl, rfl⟩ | ⟨_, rfl⟩
          · refine ⟨?_, hb', hholds.loadResult⟩
            rw [Side.other_other]
            exact hb
          · cases hother
    · cases hgood with
      | waiting hfirst hother => cases hfirst
      | held hfirst hother hholds => cases hfirst
      | removed hfirst hnone hstream hlog => cases hfirst
      | replaced hfirst hother hholds hstream hlog => cases hfirst
  · rcases hsaving'.ends with ⟨_, h⟩ | ⟨_, h⟩
    · exact absurd (h.symm.trans hdoomed.creates) (by simp)
    · exact absurd (h.symm.trans hdoomed.creates) (by simp)
  · exact absurd hfollows hnot

/-- Any other one ends with a failure, or with the file of the first side. -/
theorem overtaken_of_not_follows (h : Standing lists first p)
    (hfirst : p.returned first = some true)
    (hother : p.returned first.other = some true)
    (hfollows : ¬ Follows (Orderly lists first) p.log) :
    exists i, p.state.names StoreFile.canonical = some i ∧
      p.state.streams first = some i ∧ p.state.streams first.other ≠ some i := by
  rcases h with ⟨_, stage, stage', hsaving, hsaving', _, _, hstand⟩
  rw [program_of_returned hfirst] at hsaving
  rw [program_of_returned hother] at hsaving'
  cases hsaving
  cases hsaving'
  rcases hstand with ⟨hyes, _⟩ | ⟨_, hbad⟩
  · exact absurd hyes hfollows
  · cases hbad with
    | ahead hbefore _ => rcases hbefore with hbefore | hbefore <;> cases hbefore
    | overtaken _ _ hname hstream hapart => exact ⟨_, hname, hstream, hapart⟩

end Ends

/--
Two saves that overlap in any way: neither fails and the list of the later one is
stored, exactly if the earlier one creates its file before the later one removes a
file, the later one does so before it creates its own, and in between, the earlier
one does not look for its file, nor read it before the later one has been written.
If both save the same list, the roles can be the other way around.
-/
theorem overlapping_saves (mixed : Content -> Content -> Content)
    (lists : Side -> List Conversation) (d : Files) {schedule : List Side} {p : Saves}
    (hrun : runEvents (Interleaved.step (act mixed)) (start lists d) schedule = some p)
    (hends : p.ended = true) :
    KeepsLater lists Side.right p <->
      Follows (Orderly lists Side.left) p.log ∨
        lists Side.left = lists Side.right ∧ Follows (Orderly lists Side.right) p.log := by
  have hleft : Standing lists Side.left p := standing_run hrun
  have hright : Standing lists Side.right p := standing_run hrun
  constructor
  · intro h
    by_cases hfollows : Follows (Orderly lists Side.left) p.log
    · exact Or.inl hfollows
    · apply Or.inr
      rcases overtaken_of_not_follows hleft h.left h.right.left hfollows with
        ⟨i, hname, hstream, _⟩
      by_cases hfollows' : Follows (Orderly lists Side.right) p.log
      · have hkeeps := keepsLater_of_follows hright hends hfollows'
        exact ⟨hkeeps.right.right.symm.trans h.right.right, hfollows'⟩
      · rcases overtaken_of_not_follows hright h.right.left h.left hfollows' with
          ⟨j, hname', _, hapart⟩
        rw [hname] at hname'
        cases hname'
        exact absurd hstream hapart
  · intro h
    rcases h with hfollows | ⟨hlists, hfollows⟩
    · exact keepsLater_of_follows hleft hends hfollows
    · have hkeeps := keepsLater_of_follows hright hends hfollows
      exact ⟨hkeeps.right.left, hkeeps.left, hkeeps.right.right.trans hlists⟩

def chat (id : Uuid) (reply : Text) : Conversation where
  id := id
  messages :=
    [{ id := 10 * id, role := Role.USER, text := "Hi".toList, timestamp := 1 },
     { id := 10 * id + 1, role := Role.ORACLE, text := reply, timestamp := 2 }]
  updatedAt := 2

def snapshots : Side -> List Conversation
  | Side.left => [chat 1 "Hello".toList, chat 2 "Bye".toList]
  | Side.right => [chat 1 "Hello".toList]

def storedBefore : Files where
  canonical := some (newContent [chat 2 "Bye".toList])

def twoSaves (schedule : List Side) : Option Saves :=
  runEvents (Interleaved.step (act fun _ c => c)) (start snapshots storedBefore) schedule

/-- The later save has made its backup when the earlier one begins, which has its own
to remove when the later one has ended. -/
def interlocked : List Side :=
  List.replicate 6 Side.right ++ List.replicate 14 Side.left ++
    List.replicate 8 Side.right ++ [Side.left]

theorem overlapping_saves_interlocked :
    exists p, twoSaves interlocked = some p ∧ KeepsLater snapshots Side.right p := by
  have hrun : (twoSaves interlocked).any (fun p =>
      decide (p.ended = true ∧ Follows (Orderly snapshots Side.left) p.log)) = true := by
    decide +kernel
  simp only [Option.any_eq_true, decide_eq_true_eq] at hrun
  rcases hrun with ⟨p, hp, h⟩
  exact ⟨p, hp, (overlapping_saves _ snapshots storedBefore hp h.left).mpr
    (Or.inl h.right)⟩

def bothRemove : List Side :=
  List.replicate 6 Side.right ++ List.replicate 10 Side.left ++
    List.replicate 2 Side.right ++ [Side.left] ++ List.replicate 4 Side.right ++
    List.replicate 4 Side.left

def laterFirst : List Side :=
  List.replicate 14 Side.right ++ List.replicate 14 Side.left

/-- The later save throws, while the earlier one returns and has stored nothing
either; or both return, and the earlier list is stored. -/
theorem overlapping_saves_fails :
    (exists p, twoSaves bothRemove = some p ∧ p.returned Side.left = some true ∧
      p.returned Side.right = some false ∧
        loadResult p.state.files = loadResult storedBefore) ∧
    (exists p, twoSaves laterFirst = some p ∧ p.ended = true ∧
      ¬ KeepsLater snapshots Side.right p) := by
  have hrun : ((twoSaves bothRemove).any fun p =>
      decide (p.returned Side.left = some true ∧ p.returned Side.right = some false ∧
        loadResult p.state.files = loadResult storedBefore)) = true := by
    decide +kernel
  have hrun' : ((twoSaves laterFirst).any fun p =>
      decide (p.ended = true ∧ ¬ KeepsLater snapshots Side.right p)) = true := by
    decide +kernel
  simpa only [Option.any_eq_true, decide_eq_true_eq] using And.intro hrun hrun'

end ConversationStore
end DomainAI
