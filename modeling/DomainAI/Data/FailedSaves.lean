import DomainAI.Data.CrashSafety

/-!
# Saves that throw

A save that fails is undone with the backup that was copied before it.  The copy
may itself have failed, and so may each step of the undoing.
-/

namespace DomainAI
namespace ConversationStore

open Library Program

/-!
# Failures by name
-/

abbrev Operations := List (FileOp × Fault × Files)

def FileOp.opensEncrypted : FileOp -> Bool
  | FileOp.openEncrypted _ => true
  | _ => false

def FileOp.finishes (f : StoreFile) : FileOp -> Bool
  | FileOp.finish g _ => g = f
  | _ => false

def failed (log : Operations) (kind : FileOp -> Bool) : Bool :=
  log.any fun e => kind e.1 && e.2.1.hits e.1

def preparing (log : Operations) : Operations :=
  log.takeWhile fun e => !e.1.opensEncrypted

def writing (log : Operations) : Operations :=
  log.dropWhile fun e => !e.1.opensEncrypted

structure Failures where
  backupKept : Bool
  copyUnread : Bool
  copyUnopened : Bool
  copyCut : Bool
  canonicalKept : Bool
  tempKept : Bool
  writeUnopened : Bool
  writeCut : Bool
  undoDelete : Bool
  undoRename : Bool
  deriving DecidableEq, Repr

def failures (log : Operations) : Failures where
  backupKept := failed (preparing log) (· = FileOp.delete StoreFile.backup)
  copyUnread := failed (preparing log) (· = FileOp.readRaw StoreFile.canonical)
  copyUnopened := failed (preparing log) (· = FileOp.openRaw StoreFile.backup)
  copyCut := failed (preparing log) (FileOp.finishes StoreFile.backup)
  canonicalKept := failed (preparing log) (· = FileOp.delete StoreFile.canonical)
  tempKept := failed (preparing log) (· = FileOp.delete StoreFile.temp)
  writeUnopened := failed (writing log) FileOp.opensEncrypted
  writeCut := failed (writing log) (FileOp.finishes StoreFile.canonical)
  undoDelete := failed (writing log) (· = FileOp.delete StoreFile.canonical)
  undoRename := failed (writing log)
    (· = FileOp.renameTo StoreFile.backup StoreFile.canonical)

/-!
# What a failed save leaves
-/

def backupLeft (d : Files) (x : Failures) : Option Content :=
  match d.canonical with
  | none => d.backup
  | some c =>
      if d.backup.isSome && x.backupKept then d.backup
      else if x.copyUnread || x.copyUnopened then none
      else if x.copyCut then some Content.unreadable
      else some c

/-- The canonical file as a failed write leaves it, given what was there. -/
def written (conversations : List Conversation) (c : Option Content)
    (unopened cut : Bool) : Option Content :=
  if c.isSome then c
  else if unopened then none
  else if cut then some Content.unreadable
  else some (Content.sealed StoreFile.canonical conversations)

def undone (c b t : Option Content) (deleteFails renameFails : Bool) : Files :=
  match b with
  | none => { canonical := c, temp := t }
  | some b =>
      if renameFails then
        { canonical := if deleteFails then c else none, backup := some b, temp := t }
      else { canonical := some b, temp := t }

def filesLeft (conversations : List Conversation) (d : Files) (x : Failures) :
    Files :=
  undone
    (written conversations (if x.canonicalKept then d.canonical else none)
      x.writeUnopened x.writeCut)
    (backupLeft d x) (if x.tempKept then d.temp else none) x.undoDelete x.undoRename

theorem failed_cons (e : FileOp × Fault × Files) (log : Operations)
    (kind : FileOp -> Bool) :
    failed (e :: log) kind = (kind e.1 && e.2.1.hits e.1 || failed log kind) :=
  List.any_cons

@[simp] theorem failed_nil (kind : FileOp -> Bool) : failed [] kind = false := rfl

theorem failed_append (log more : Operations) (kind : FileOp -> Bool) :
    failed (log ++ more) kind = (failed log kind || failed more kind) :=
  List.any_append

theorem failed_eq_false {log : Operations} {kind : FileOp -> Bool}
    (h : forall e, e ∈ log -> kind e.1 = false) : failed log kind = false := by
  rw [failed, List.any_eq_false]
  intro e he
  simp [h e he]

theorem failed_of_kind {log : Operations} {kind other : FileOp -> Bool}
    (h : forall e, e ∈ log -> other e.1 = true)
    (hkinds : forall o, other o = true -> kind o = false) : failed log kind = false :=
  failed_eq_false fun e he => hkinds e.1 (h e he)

def FileOp.copies : FileOp -> Bool
  | FileOp.present _ => true
  | FileOp.delete f => f = StoreFile.backup
  | FileOp.readRaw f => f = StoreFile.canonical
  | FileOp.openRaw f => f = StoreFile.backup
  | FileOp.finish f _ => f = StoreFile.backup
  | _ => false

def FileOp.removes : FileOp -> Bool
  | FileOp.present _ => true
  | FileOp.delete f => f = StoreFile.canonical
  | _ => false

theorem copyBytes_leads (c : Content) (b t : Option Content) :
    Leads exec (copyBytes StoreFile.canonical StoreFile.backup) (fun _ d' log =>
      (forall e, e ∈ log -> e.1.copies = true) ∧
        failed log (· = FileOp.delete StoreFile.backup) = false ∧
        d' =
          { canonical := some c,
            backup :=
              if failed log (· = FileOp.readRaw StoreFile.canonical) ||
                  failed log (· = FileOp.openRaw StoreFile.backup) then b
              else if failed log (FileOp.finishes StoreFile.backup) then
                some Content.unreadable
              else some c,
            temp := t }) { canonical := some c, backup := b, temp := t } := by
  apply leads_perform
  intro read
  cases hread : read.hits (FileOp.readRaw StoreFile.canonical) with
  | true =>
      simp only [exec, execute, hread]
      apply leads_done
      simp [failed, FileOp.copies, hread]
  | false =>
      simp only [exec, execute, hread, Files.get]
      apply leads_perform
      intro opened
      cases hopened : opened.hits (FileOp.openRaw StoreFile.backup) with
      | true =>
          simp only [exec, execute, hopened]
          apply leads_done
          simp [failed, FileOp.copies, hread, hopened]
      | false =>
          simp only [exec, execute, hopened]
          apply leads_perform
          intro finished
          apply leads_done
          cases hfinished : finished.hits (FileOp.finish StoreFile.backup c) <;>
            simp [failed, FileOp.copies, FileOp.finishes, exec, execute, Files.set,
              hread, hopened, hfinished]

theorem backUp_leads (d : Files) :
    Leads exec backUp (fun _ d' log =>
      (forall e, e ∈ log -> e.1.copies = true) ∧
        forall x : Failures,
          x.backupKept = failed log (· = FileOp.delete StoreFile.backup) ->
          x.copyUnread = failed log (· = FileOp.readRaw StoreFile.canonical) ->
          x.copyUnopened = failed log (· = FileOp.openRaw StoreFile.backup) ->
          x.copyCut = failed log (FileOp.finishes StoreFile.backup) ->
          d' = { d with backup := backupLeft d x }) d := by
  rcases d with ⟨_ | c, b, t⟩
  · apply leads_perform
    intro f
    apply leads_done
    simp [FileOp.copies, exec, execute, backupLeft]
  · apply leads_perform
    intro f
    apply leads_perform
    intro g
    apply leads_perform
    intro h
    cases b with
    | none =>
        refine leads_mono (copyBytes_leads c none t) ?_
        rintro _ d' log ⟨hcopies, hkept, rfl⟩
        refine ⟨by simpa [FileOp.copies] using hcopies, ?_⟩
        intro x _ hunread hunopened hcut
        simp only [failed_cons] at hunread hunopened hcut
        simp [backupLeft, hunread, hunopened, hcut, FileOp.finishes]
    | some b =>
        apply leads_perform
        intro deleted
        cases hdeleted : deleted.hits (FileOp.delete StoreFile.backup) with
        | true =>
            simp only [exec, execute, hdeleted]
            apply leads_done
            refine ⟨by simp [FileOp.copies], ?_⟩
            intro x hkept _ _ _
            simp [failed_cons, hdeleted] at hkept
            simp [backupLeft, hkept]
        | false =>
            simp only [exec, execute, hdeleted]
            refine leads_mono (copyBytes_leads c none t) ?_
            rintro _ d' log ⟨hcopies, hnotKept, rfl⟩
            refine ⟨by simpa [FileOp.copies] using hcopies, ?_⟩
            intro x hkept hunread hunopened hcut
            simp only [failed_cons] at hkept hunread hunopened hcut
            simp [backupLeft, hkept, hunread, hunopened, hcut, FileOp.finishes,
              hdeleted, hnotKept]

theorem removeCanonical_leads (c b t : Option Content) :
    Leads exec removeCanonical (fun _ d' log =>
      (forall e, e ∈ log -> e.1.removes = true) ∧
        d' =
          { canonical :=
              if failed log (· = FileOp.delete StoreFile.canonical) then c else none,
            backup := b, temp := t }) { canonical := c, backup := b, temp := t } := by
  apply leads_perform
  intro f
  cases c with
  | none =>
      apply leads_done
      simp [FileOp.removes, exec, execute]
  | some c =>
      apply leads_perform
      intro deleted
      apply leads_done
      cases hdeleted : deleted.hits (FileOp.delete StoreFile.canonical) <;>
        simp [failed, FileOp.removes, exec, execute, Files.set, hdeleted]

theorem restoreBackup_leads (c b t : Option Content) :
    Leads exec restoreBackup (fun _ d' log =>
      (forall e, e ∈ log -> e.1.opensEncrypted = false ∧
        e.1.finishes StoreFile.canonical = false) ∧
        d' = undone c b t
          (failed log (· = FileOp.delete StoreFile.canonical))
          (failed log (· = FileOp.renameTo StoreFile.backup StoreFile.canonical)))
      { canonical := c, backup := b, temp := t } := by
  apply leads_perform
  intro f
  cases b with
  | none =>
      apply leads_done
      simp [FileOp.opensEncrypted, FileOp.finishes, exec, execute, undone]
  | some b =>
      apply leads_perform
      intro deleted
      apply leads_perform
      intro renamed
      apply leads_done
      cases hdeleted : deleted.hits (FileOp.delete StoreFile.canonical) <;>
        cases hrenamed : renamed.hits
          (FileOp.renameTo StoreFile.backup StoreFile.canonical) <;>
          simp [failed, FileOp.opensEncrypted, FileOp.finishes, exec, execute, Files.get,
            Files.set, undone, hdeleted, hrenamed]

def FileOp.writes : FileOp -> Bool
  | FileOp.openEncrypted _ => true
  | FileOp.finish _ _ => true
  | FileOp.present _ => true
  | FileOp.decrypt _ => true
  | _ => false

theorem failed_of_writes {log : Operations}
    (h : forall e, e ∈ log -> e.1.writes = true) :
    failed log (· = FileOp.delete StoreFile.canonical) = false ∧
      failed log (· = FileOp.renameTo StoreFile.backup StoreFile.canonical) = false := by
  constructor
  · exact failed_of_kind h fun o ho => by cases o <;> simp_all [FileOp.writes]
  · exact failed_of_kind h fun o ho => by cases o <;> simp_all [FileOp.writes]

theorem writeCanonical_leads (conversations : List Conversation)
    (c b t : Option Content) :
    Leads exec (writeCanonical conversations) (fun _ d' log =>
      (exists f d rest, log = (FileOp.openEncrypted StoreFile.canonical, f, d) :: rest) ∧
        (forall e, e ∈ log -> e.1.writes = true) ∧
        d' =
          { canonical := written conversations c (failed log FileOp.opensEncrypted)
              (failed log (FileOp.finishes StoreFile.canonical)),
            backup := b, temp := t }) { canonical := c, backup := b, temp := t } := by
  apply leads_perform
  intro opened
  cases hopened : opened.hits (FileOp.openEncrypted StoreFile.canonical) with
  | true =>
      simp only [exec, execute, hopened]
      apply leads_done
      cases c <;>
        simp [failed, FileOp.opensEncrypted, FileOp.writes, hopened, written]
  | false =>
      cases c with
      | some c =>
          simp only [exec, execute, hopened]
          apply leads_done
          simp [FileOp.writes, Files.get, written]
      | none =>
          simp only [exec, execute, hopened]
          apply leads_perform
          intro finished
          apply leads_done
          cases hfinished : finished.hits (FileOp.finish StoreFile.canonical
              (Content.sealed StoreFile.canonical conversations)) <;>
            simp [failed, FileOp.opensEncrypted, FileOp.finishes, FileOp.writes, exec,
              execute, Files.get, Files.set, written, hopened, hfinished]

theorem readBack_leads (ok : Bool) (d : Files) :
    Leads exec (readBack ok) (fun _ d' log =>
      (forall e, e ∈ log -> e.1.writes = true ∧ e.1.opensEncrypted = false ∧
        e.1.finishes StoreFile.canonical = false) ∧ d' = d) d := by
  cases ok with
  | false =>
      apply leads_done
      simp
  | true =>
      apply leads_perform
      intro f
      cases hpresent : (exec (FileOp.present StoreFile.canonical) f d).1 with
      | false =>
          apply leads_done
          simp [FileOp.writes, FileOp.opensEncrypted, FileOp.finishes, exec, execute]
      | true =>
          apply leads_perform
          intro decrypted
          apply leads_done
          simp [FileOp.writes, FileOp.opensEncrypted, FileOp.finishes, exec, execute]

theorem writeVerified_leads (conversations : List Conversation) (c b t : Option Content) :
    Leads exec (writeVerified conversations) (fun returned d' log =>
      (exists f d rest, log = (FileOp.openEncrypted StoreFile.canonical, f, d) :: rest) ∧
        (returned = false ->
          d' = undone
            (written conversations c (failed log FileOp.opensEncrypted)
              (failed log (FileOp.finishes StoreFile.canonical))) b t
            (failed log (· = FileOp.delete StoreFile.canonical))
            (failed log (· = FileOp.renameTo StoreFile.backup StoreFile.canonical))))
      { canonical := c, backup := b, temp := t } := by
  refine leads_bind (leads_mono (writeCanonical_leads conversations c b t) ?_)
  rintro ok d' log ⟨⟨f, d, rest, rfl⟩, hwrites, rfl⟩
  refine leads_bind (leads_mono (readBack_leads ok _) ?_)
  rintro verified d' log' ⟨hreads, rfl⟩
  cases verified with
  | some conversations =>
      apply leads_perform
      intro deleted
      apply leads_done
      refine ⟨⟨f, d, _, rfl⟩, ?_⟩
      intro hreturned
      cases hreturned
  | none =>
      refine leads_bind (leads_mono (restoreBackup_leads _ b t) ?_)
      rintro _ d' undo ⟨hundo, rfl⟩
      apply leads_done
      refine ⟨⟨f, d, _, rfl⟩, ?_⟩
      intro _
      simp only [failed_append, List.append_nil]
      rw [failed_eq_false fun e he => (hreads e he).right.left,
        failed_eq_false fun e he => (hreads e he).right.right,
        failed_eq_false fun e he => (hundo e he).left,
        failed_eq_false fun e he => (hundo e he).right,
        (failed_of_writes hwrites).left, (failed_of_writes hwrites).right,
        (failed_of_writes fun e he => (hreads e he).left).left,
        (failed_of_writes fun e he => (hreads e he).left).right]
      simp only [Bool.or_false, Bool.false_or]

/-!
# Saves
-/

theorem preparing_append {log : Operations}
    (h : forall e, e ∈ log -> e.1.opensEncrypted = false) (f : StoreFile) (fault : Fault)
    (d : Files) (rest : Operations) :
    preparing (log ++ (FileOp.openEncrypted f, fault, d) :: rest) = log ∧
      writing (log ++ (FileOp.openEncrypted f, fault, d) :: rest) =
        (FileOp.openEncrypted f, fault, d) :: rest := by
  have hnot : forall e, e ∈ log -> (!e.1.opensEncrypted) = true := by
    intro e he
    rw [h e he]
    rfl
  constructor
  · rw [preparing, List.takeWhile_append_of_pos hnot]
    simp [FileOp.opensEncrypted]
  · rw [writing, List.dropWhile_append_of_pos hnot]
    simp [FileOp.opensEncrypted]

theorem failed_of_copies {log : Operations}
    (h : forall e, e ∈ log -> e.1.copies = true) :
    failed log (· = FileOp.delete StoreFile.canonical) = false ∧
      failed log (· = FileOp.delete StoreFile.temp) = false := by
  constructor
  · exact failed_of_kind h fun o ho => by cases o <;> simp_all [FileOp.copies]
  · exact failed_of_kind h fun o ho => by cases o <;> simp_all [FileOp.copies]

theorem failed_of_removes {log : Operations}
    (h : forall e, e ∈ log -> e.1.removes = true) :
    failed log (· = FileOp.delete StoreFile.backup) = false ∧
      failed log (· = FileOp.readRaw StoreFile.canonical) = false ∧
      failed log (· = FileOp.openRaw StoreFile.backup) = false ∧
      failed log (FileOp.finishes StoreFile.backup) = false ∧
      failed log (· = FileOp.delete StoreFile.temp) = false := by
  refine ⟨?_, ?_, ?_, ?_, ?_⟩
  · exact failed_of_kind h fun o ho => by cases o <;> simp_all [FileOp.removes]
  · exact failed_of_kind h fun o ho => by cases o <;> simp_all [FileOp.removes]
  · exact failed_of_kind h fun o ho => by cases o <;> simp_all [FileOp.removes]
  · exact failed_of_kind h fun o ho => by
      cases o <;> simp_all [FileOp.removes, FileOp.finishes]
  · exact failed_of_kind h fun o ho => by cases o <;> simp_all [FileOp.removes]

theorem not_opensEncrypted {o : FileOp} (h : o.copies = true ∨ o.removes = true) :
    o.opensEncrypted = false := by
  cases o <;> simp_all [FileOp.copies, FileOp.removes, FileOp.opensEncrypted]

theorem failures_append {copying removing log : Operations}
    (hcopies : forall e, e ∈ copying -> e.1.copies = true)
    (hremoves : forall e, e ∈ removing -> e.1.removes = true)
    (hlog : exists f d rest, log = (FileOp.openEncrypted StoreFile.canonical, f, d) :: rest)
    (deleted : Fault) (d : Files) :
    failures (copying ++ (removing ++
        (FileOp.delete StoreFile.temp, deleted, d) :: log)) =
      { backupKept := failed copying (· = FileOp.delete StoreFile.backup)
        copyUnread := failed copying (· = FileOp.readRaw StoreFile.canonical)
        copyUnopened := failed copying (· = FileOp.openRaw StoreFile.backup)
        copyCut := failed copying (FileOp.finishes StoreFile.backup)
        canonicalKept := failed removing (· = FileOp.delete StoreFile.canonical)
        tempKept := deleted.hits (FileOp.delete StoreFile.temp)
        writeUnopened := failed log FileOp.opensEncrypted
        writeCut := failed log (FileOp.finishes StoreFile.canonical)
        undoDelete := failed log (· = FileOp.delete StoreFile.canonical)
        undoRename := failed log
          (· = FileOp.renameTo StoreFile.backup StoreFile.canonical) } := by
  rcases hlog with ⟨f, d', rest, rfl⟩
  have hparts : forall rest : Operations,
      copying ++ (removing ++ (FileOp.delete StoreFile.temp, deleted, d) :: rest) =
        copying ++ removing ++ [(FileOp.delete StoreFile.temp, deleted, d)] ++ rest := by
    intro rest
    simp
  have hbefore : forall e, e ∈ copying ++ removing ++
      [(FileOp.delete StoreFile.temp, deleted, d)] -> e.1.opensEncrypted = false := by
    intro e he
    simp only [List.mem_append, List.mem_singleton] at he
    rcases he with (he | he) | rfl
    · exact not_opensEncrypted (Or.inl (hcopies e he))
    · exact not_opensEncrypted (Or.inr (hremoves e he))
    · rfl
  have hcut := preparing_append hbefore StoreFile.canonical f d' rest
  rw [hparts, failures, hcut.left, hcut.right]
  have hcopied := failed_of_copies hcopies
  have hremoved := failed_of_removes hremoves
  simp [failed_append, failed_cons, hcopied, hremoved, FileOp.finishes]

theorem save_leads (conversations : List Conversation) (d : Files) :
    Leads exec (save conversations) (fun returned d' log =>
      returned = false -> d' = filesLeft conversations d (failures log)) d := by
  refine leads_bind (leads_mono (backUp_leads d) ?_)
  rintro _ d₁ copying ⟨hcopies, hbackup⟩
  generalize hcopied : d₁ = d₂
  rcases d₂ with ⟨c, b, t⟩
  refine leads_bind (leads_mono (removeCanonical_leads c b t) ?_)
  rintro _ d₂ removing ⟨hremoves, rfl⟩
  apply leads_perform
  intro deleted
  have htemp : forall c : Option Content, (exec (FileOp.delete StoreFile.temp) deleted
      { canonical := c, backup := b, temp := t }).2 =
        { canonical := c, backup := b,
          temp := if deleted.hits (FileOp.delete StoreFile.temp) then t else none } := by
    intro c
    cases hdeleted : deleted.hits (FileOp.delete StoreFile.temp) <;>
      simp [exec, execute, Files.set, hdeleted]
  rw [htemp]
  refine leads_mono (writeVerified_leads conversations _ b _) ?_
  rintro returned d' log ⟨hlog, hundone⟩ hreturned
  rw [hundone hreturned, failures_append hcopies hremoves hlog]
  have hleft := hbackup
    (failures (copying ++ (removing ++ (FileOp.delete StoreFile.temp, deleted, d) :: log)))
  rw [failures_append hcopies hremoves hlog] at hleft
  have hfiles := hleft rfl rfl rfl rfl
  rw [hcopied] at hfiles
  cases hfiles
  rfl

/-!
# History
-/

/-- No backup is there when the handler looks for one: there was nothing to copy, or
the copy did not get as far as opening the file. -/
def noBackup (d : Files) (x : Failures) : Bool :=
  if d.canonical.isSome then
    !(d.backup.isSome && x.backupKept) && (x.copyUnread || x.copyUnopened)
  else d.backup.isNone

def nothingWritten (d : Files) (x : Failures) : Bool :=
  !(d.canonical.isSome && x.canonicalKept) && x.writeUnopened

/-- The backup was whole, or reads as what there was. -/
def BackupSpares (d : Files) (x : Failures) : Prop :=
  d.canonical.isSome = true ->
    if d.backup.isSome && x.backupKept then
      d.backup.map recovered = some (loadResult d)
    else x.copyCut = true -> loadResult d = []

def WriteSpares (conversations : List Conversation) (d : Files) (x : Failures) : Prop :=
  if d.canonical.isSome && x.canonicalKept then True
  else if x.writeCut then loadResult d = []
  else loadResult d = conversations

def TempSpares (d : Files) (x : Failures) : Prop :=
  if x.tempKept then (decode StoreFile.temp d.temp).getD [] = loadResult d
  else loadResult d = []

/-- The handler brings back a good backup; where there is none, or the handler gets
nowhere, the write has done no harm. -/
def KeepsHistory (conversations : List Conversation) (d : Files) (x : Failures) :
    Prop :=
  if noBackup d x then
    if nothingWritten d x then TempSpares d x else WriteSpares conversations d x
  else if x.undoDelete && x.undoRename && !nothingWritten d x then
    WriteSpares conversations d x
  else BackupSpares d x

theorem backupLeft_eq_none {d : Files} {x : Failures} :
    backupLeft d x = none <-> noBackup d x = true := by
  rcases d with ⟨_ | c, b, t⟩
  · simp [backupLeft, noBackup]
  · simp only [backupLeft, noBackup]
    cases b <;> cases x.backupKept <;> cases x.copyUnread <;> cases x.copyUnopened <;>
      cases x.copyCut <;> simp

theorem recovered_backupLeft {d : Files} {x : Failures} {b : Content}
    (h : backupLeft d x = some b) : recovered b = loadResult d <-> BackupSpares d x := by
  rcases d with ⟨_ | c, old, t⟩
  · have hb : old = some b := h
    subst hb
    simp [BackupSpares, loadResult_eq_held, held]
  · have hheld : loadResult { canonical := some c, backup := old, temp := t } =
        recovered c :=
      loadResult_eq_held _
    simp only [backupLeft] at h
    simp only [BackupSpares, hheld, Option.isSome_some, forall_const]
    split at h
    · rename_i hkept
      rw [if_pos hkept, h, Option.map_some, Option.some_inj]
    · rename_i hkept
      rw [if_neg hkept]
      split at h
      · cases h
      · split at h
        · rename_i hcut
          cases h
          exact ⟨fun h _ => h.symm, fun h => (h hcut).symm⟩
        · rename_i hcut
          cases h
          simp [hcut]

theorem written_eq_none {conversations : List Conversation} {d : Files} {x : Failures} :
    written conversations (if x.canonicalKept then d.canonical else none)
        x.writeUnopened x.writeCut = none <->
      nothingWritten d x = true := by
  unfold written nothingWritten
  cases d.canonical <;> cases x.canonicalKept <;> cases x.writeUnopened <;>
    cases x.writeCut <;> simp

theorem recovered_written {conversations : List Conversation} {d : Files} {x : Failures}
    {c : Content}
    (h : written conversations (if x.canonicalKept then d.canonical else none)
      x.writeUnopened x.writeCut = some c) :
    recovered c = loadResult d <-> WriteSpares conversations d x := by
  unfold written at h
  unfold WriteSpares
  by_cases hkept : (d.canonical.isSome && x.canonicalKept) = true
  · rw [if_pos hkept]
    rw [Bool.and_eq_true] at hkept
    rw [hkept.right, if_pos rfl, if_pos hkept.left] at h
    simp [loadResult_eq_held, held, h]
  · rw [if_neg hkept]
    have hgone : ¬ (if x.canonicalKept = true then d.canonical else none).isSome = true := by
      intro hsome
      split at hsome
      · rename_i hflag
        exact hkept (Bool.and_eq_true_iff.mpr ⟨hsome, hflag⟩)
      · cases hsome
    rw [if_neg hgone] at h
    by_cases hunopened : x.writeUnopened = true
    · rw [if_pos hunopened] at h
      cases h
    · rw [if_neg hunopened] at h
      by_cases hcut : x.writeCut = true
      · rw [if_pos hcut] at h ⊢
        cases h
        exact eq_comm
      · rw [if_neg hcut] at h ⊢
        cases h
        exact eq_comm

theorem loadResult_filesLeft (conversations : List Conversation) (d : Files)
    (x : Failures) :
    loadResult (filesLeft conversations d x) = loadResult d <->
      KeepsHistory conversations d x := by
  rw [loadResult_eq_held (filesLeft conversations d x)]
  unfold filesLeft KeepsHistory
  cases hbackup : backupLeft d x with
  | none =>
      rw [if_pos (backupLeft_eq_none.mp hbackup)]
      cases hwritten : written conversations
          (if x.canonicalKept then d.canonical else none) x.writeUnopened x.writeCut with
      | none =>
          rw [if_pos (written_eq_none.mp hwritten)]
          unfold TempSpares
          split
          · exact Iff.rfl
          · exact eq_comm
      | some c =>
          have hsomething : ¬ nothingWritten d x = true := by
            intro hnothing
            rw [written_eq_none.mpr hnothing] at hwritten
            cases hwritten
          rw [if_neg hsomething]
          exact recovered_written hwritten
  | some b =>
      have hsome : ¬ noBackup d x = true := by
        intro hnone
        rw [backupLeft_eq_none.mpr hnone] at hbackup
        cases hbackup
      rw [if_neg hsome]
      by_cases hstuck : (x.undoDelete && x.undoRename && !nothingWritten d x) = true
      · rw [if_pos hstuck]
        simp only [Bool.and_eq_true, Bool.not_eq_true'] at hstuck
        cases hwritten : written conversations
            (if x.canonicalKept then d.canonical else none) x.writeUnopened
            x.writeCut with
        | none => simp [written_eq_none.mp hwritten] at hstuck
        | some c =>
            simp only [undone, hstuck, if_true]
            exact recovered_written hwritten
      · rw [if_neg hstuck, <- recovered_backupLeft hbackup]
        have hheld : forall w t, (w = none ∨ x.undoDelete = false ∨ x.undoRename = false) ->
            held (undone w (some b) t x.undoDelete x.undoRename) = recovered b := by
          rintro w t (rfl | hdelete | hrename)
          · cases x.undoDelete <;> cases x.undoRename <;> rfl
          · rw [hdelete]
            cases x.undoRename <;> rfl
          · rw [hrename]
            rfl
        rw [hheld]
        simp only [Bool.and_eq_true, Bool.not_eq_true', not_and, Bool.not_eq_false]
          at hstuck
        rw [written_eq_none]
        cases hdelete : x.undoDelete with
        | false => exact Or.inr (Or.inl rfl)
        | true =>
            cases hrename : x.undoRename with
            | false => exact Or.inr (Or.inr rfl)
            | true => exact Or.inl (hstuck ⟨hdelete, hrename⟩)

/-- A save that throws leaves the history as it was exactly if the handler brings
back a good backup, or there is none and the write has done no harm. -/
theorem failed_save_keeps (conversations : List Conversation) (d : Files)
    (faults : List Fault) (h : saveReturns conversations faults d = false) :
    loadResult (saveFiles conversations faults d) = loadResult d <->
      KeepsHistory conversations d
        (failures (trace exec (save conversations) faults d)) := by
  have hleft := save_leads conversations d faults h
  rw [saveFiles, hleft]
  exact loadResult_filesLeft _ _ _

def onDisk : Files where
  canonical := some (Content.sealed StoreFile.canonical [{ id := 1, updatedAt := 1 }])

def cutWrite : List Fault :=
  List.replicate 10 Fault.none ++ [Fault.failure]

def fullDisk : List Fault :=
  List.replicate 5 Fault.none ++ [Fault.failure] ++ List.replicate 4 Fault.none ++
    [Fault.failure]

theorem failed_save_keeps_cutWrite :
    loadResult (saveFiles [] cutWrite onDisk) = loadResult onDisk :=
  (failed_save_keeps [] onDisk cutWrite (by decide)).mpr
    (fun _ hcut => absurd hcut (by decide))

theorem failed_save_keeps_fails :
    saveReturns [] fullDisk onDisk = false ∧
      ¬ loadResult (saveFiles [] fullDisk onDisk) = loadResult onDisk := by
  decide

end ConversationStore
end DomainAI
