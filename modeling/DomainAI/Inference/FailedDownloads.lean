import DomainAI.Inference.ModelRuns

/-!
# Failed and cancelled downloads

A download that brings no new model should leave everything as it was, apart
from saying how it ended.  The operations of a run tell where it does not.
-/

namespace DomainAI
namespace ModelManager

open Library Library.Program ModelStorage

/-!
# The operations of a download
-/

/-- The operations of a run, each with the answer to it and the state it met. -/
abbrev Log := List (ManagerOp × Answer × Coroutine)

def Finalizes : ManagerOp -> Answer -> Coroutine -> Bool
  | ManagerOp.withContext (Block.finalize temp _), a, c =>
      !c.cancelled && a.delivery != Delivery.cancelledBefore &&
        isGguf c.manager.modelStorage temp
  | _, _, _ => false

def Promotes (o : ManagerOp) (a : Answer) (c : Coroutine) : Bool :=
  Finalizes o a c && !a.renameRefused

/-- The file that was to be replaced is deleted, and nothing comes in its place. -/
def Loses : ManagerOp -> Answer -> Coroutine -> Bool
  | ManagerOp.withContext (Block.finalize temp name), a, c =>
      Finalizes (ManagerOp.withContext (Block.finalize temp name)) a c &&
        a.renameRefused && c.manager.modelStorage.present (fileFor name)
  | _, _, _ => false

/-- Nobody is cancelled while a failed mirror is being cleaned up. -/
def CleansUp : ManagerOp -> Answer -> Coroutine -> Bool
  | ManagerOp.withContext (Block.delete _), a, _ => a.delivery == Delivery.returned
  | _, _, _ => true

/-- What is promoted is what the file of that name held at first. -/
def Repeats (m : Manager) : ManagerOp -> Answer -> Coroutine -> Bool
  | ManagerOp.withContext (Block.finalize temp name), a, c =>
      !Promotes (ManagerOp.withContext (Block.finalize temp name)) a c ||
        c.manager.modelStorage.read temp == m.modelStorage.read (fileFor name)
  | _, _, _ => true

/-- No new model, at least not before the caller is cancelled: a file is promoted
only while the block of `finalize` runs and its caller is being cancelled. -/
def InVain (o : ManagerOp) (a : Answer) (c : Coroutine) : Bool :=
  !Promotes o a c || a.delivery == Delivery.cancelledAfter

def Log.All (ok : ManagerOp -> Answer -> Coroutine -> Bool) (log : Log) : Prop :=
  forall e, e ∈ log -> ok e.1 e.2.1 e.2.2 = true

def Log.None (bad : ManagerOp -> Answer -> Coroutine -> Bool) (log : Log) : Prop :=
  forall e, e ∈ log -> bad e.1 e.2.1 e.2.2 = false

/-- Everything is as before the download, which says that it failed or that it
has been cancelled. -/
structure Isolated (spec : ModelSpec) (m : Manager) (result : Option Failure)
    (m' : Manager) : Prop where
  unchanged : m' =
    (m.setTransfer m'.transfer).setModelStorage m'.modelStorage
  installed : forall name, name ≠ tempFor spec.fileName ->
    m'.modelStorage.read name = m.modelStorage.read name
  temp : m'.modelStorage.present (tempFor spec.fileName) = false
  exhausted : result = none -> exists message,
    m'.transfer = TransferState.Failed spec.displayName message
  cancelled : result ≠ none -> m'.transfer = TransferState.Idle

/-!
# Logs
-/

section Logs

variable {ok bad : ManagerOp -> Answer -> Coroutine -> Bool} {log more : Log}

@[simp] theorem all_nil : Log.All ok [] := by
  intro e he
  cases he

@[simp] theorem none_nil : Log.None bad [] := by
  intro e he
  cases he

@[simp] theorem all_cons {e : ManagerOp × Answer × Coroutine} :
    Log.All ok (e :: log) <-> ok e.1 e.2.1 e.2.2 = true ∧ Log.All ok log :=
  List.forall_mem_cons

@[simp] theorem none_cons {e : ManagerOp × Answer × Coroutine} :
    Log.None bad (e :: log) <-> bad e.1 e.2.1 e.2.2 = false ∧ Log.None bad log :=
  List.forall_mem_cons

theorem all_append : Log.All ok (log ++ more) <-> Log.All ok log ∧ Log.All ok more :=
  List.forall_mem_append

theorem none_append :
    Log.None bad (log ++ more) <-> Log.None bad log ∧ Log.None bad more :=
  List.forall_mem_append

theorem repeats_of_not_promotes (m : Manager) {o : ManagerOp} {a : Answer}
    {c : Coroutine} (h : Promotes o a c = false) : Repeats m o a c = true := by
  unfold Repeats
  split
  · rw [h]
    rfl
  · rfl

theorem Log.None.repeats (h : Log.None Promotes log) (m : Manager) :
    Log.All (Repeats m) log := by
  intro e he
  exact repeats_of_not_promotes m (h e he)

end Logs

/-!
# Suspensions
-/

section Leads

variable {alpha : Type} {Q : alpha -> Coroutine -> Log -> Prop} {c : Coroutine}

theorem leads_append {R : alpha -> Coroutine -> Log -> Prop}
    {p : ManagerProgram alpha} {front : Log} {e : ManagerOp × Answer × Coroutine}
    (h : Leads exec p (fun r c' log => R r c' (front ++ [e] ++ log)) c) :
    Leads exec p (fun r c' log => R r c' (front ++ e :: log)) c := by
  refine leads_mono h ?_
  intro r c' log hR
  rwa [List.append_cons]

theorem leads_withContext {block : Block}
    {next : Except Failure block.Result -> ManagerProgram alpha}
    (hc : c.cancelled = false)
    (hbefore : forall a, a.delivery = Delivery.cancelledBefore ->
      Leads exec (next (Except.error a.cancellation))
        (fun r c' log => Q r c' ((ManagerOp.withContext block, a, c) :: log))
        { c with cancelled := true })
    (hafter : forall a, a.delivery = Delivery.cancelledAfter ->
      Leads exec (next (Except.error a.cancellation))
        (fun r c' log => Q r c' ((ManagerOp.withContext block, a, c) :: log))
        { manager := (block.run a c.manager).2, cancelled := true })
    (hreturned : forall a, a.delivery = Delivery.returned ->
      Leads exec (next (block.run a c.manager).1)
        (fun r c' log => Q r c' ((ManagerOp.withContext block, a, c) :: log))
        { c with manager := (block.run a c.manager).2 }) :
    Leads exec (perform (ManagerOp.withContext block) next) Q c := by
  apply leads_perform
  intro a
  cases hdelivery : a.delivery with
  | returned =>
      have h := hreturned a hdelivery
      simpa [exec, hc, hdelivery] using h
  | cancelledBefore =>
      have h := hbefore a hdelivery
      simpa [exec, hc, hdelivery] using h
  | cancelledAfter =>
      have h := hafter a hdelivery
      simpa [exec, hc, hdelivery] using h

end Leads

/-!
# One mirror
-/

structure Transferred (spec : ModelSpec) (m m' : Manager) : Prop where
  unchanged : m' =
    (m.setTransfer m'.transfer).setModelStorage m'.modelStorage
  others : forall name, name ≠ tempFor spec.fileName -> name ≠ fileFor spec.fileName ->
    m'.modelStorage.read name = m.modelStorage.read name

namespace Transferred

variable {spec : ModelSpec} {m m' m'' : Manager}

theorem refl (m : Manager) : Transferred spec m m :=
  ⟨rfl, fun _ _ _ => rfl⟩

theorem trans (h : Transferred spec m m') (h' : Transferred spec m' m'') :
    Transferred spec m m'' := by
  constructor
  · rw [h'.unchanged, h.unchanged]
    rfl
  · intro name htemp hfile
    rw [h'.others name htemp hfile, h.others name htemp hfile]

theorem setTransfer (h : Transferred spec m m') (transfer : TransferState) :
    Transferred spec m (m'.setTransfer transfer) := by
  constructor
  · rw [h.unchanged]
    rfl
  · exact h.others

theorem setModelStorage (h : Transferred spec m m') {d : Directory}
    (hd : forall name, name ≠ tempFor spec.fileName ->
      name ≠ fileFor spec.fileName -> d.read name = m'.modelStorage.read name) :
    Transferred spec m (m'.setModelStorage d) := by
  constructor
  · rw [h.unchanged]
    rfl
  · intro name htemp hfile
    exact (hd name htemp hfile).trans (h.others name htemp hfile)

theorem delete_temp (h : Transferred spec m m') :
    Transferred spec m (m'.setModelStorage
      (m'.modelStorage.delete (tempFor spec.fileName))) :=
  h.setModelStorage fun _ htemp _ => Directory.read_delete_of_ne htemp _

end Transferred

def KeptOrLost (spec : ModelSpec) (m m' : Manager) (log : Log) : Prop :=
  (Log.None Loses log ∧ m'.modelStorage.read (fileFor spec.fileName) =
      m.modelStorage.read (fileFor spec.fileName)) ∨
    (¬ Log.None Loses log ∧ m.modelStorage.read (fileFor spec.fileName) ≠ none ∧
      m'.modelStorage.read (fileFor spec.fileName) = none)

inductive MirrorEnds (spec : ModelSpec) (m : Manager) :
    Attempt -> Coroutine -> Log -> Prop where
  | failed {message : Option Text} {c : Coroutine} {log : Log}
      (hc : c.cancelled = false) (hm : Transferred spec m c.manager)
      (htemp : c.manager.modelStorage.present (tempFor spec.fileName) = false)
      (htransfer : c.manager.transfer ≠ TransferState.Idle)
      (hpromotes : Log.None Promotes log) (hclean : Log.All CleansUp log)
      (hkept : KeptOrLost spec m c.manager log) :
      MirrorEnds spec m (Attempt.failed message) c log
  | cancelled {e : Failure} {c : Coroutine} {log : Log}
      (hm : Transferred spec m c.manager)
      (htemp : c.manager.modelStorage.present (tempFor spec.fileName) = false)
      (htransfer : c.manager.transfer = TransferState.Idle)
      (hpromotes : Log.None Promotes log) (hclean : Log.All CleansUp log)
      (hkept : KeptOrLost spec m c.manager log) :
      MirrorEnds spec m (Attempt.cancelled e) c log
  | promoted {e : Failure} {c : Coroutine} {log : Log}
      (hm : Transferred spec m c.manager)
      (htemp : c.manager.modelStorage.present (tempFor spec.fileName) = false)
      (htransfer : c.manager.transfer = TransferState.Idle)
      (hpromotes : ¬ Log.None Promotes log) (hclean : Log.All CleansUp log)
      (hrepeats : forall m₀ : Manager, Log.All (Repeats m₀) log <->
        c.manager.modelStorage.read (fileFor spec.fileName) =
          m₀.modelStorage.read (fileFor spec.fileName)) :
      MirrorEnds spec m (Attempt.cancelled e) c log
  | interrupted {e : Failure} {c : Coroutine} {log : Log}
      (htransfer : c.manager.transfer ≠ TransferState.Idle)
      (hclean : ¬ Log.All CleansUp log) :
      MirrorEnds spec m (Attempt.cancelled e) c log
  | activated {c : Coroutine} {log : Log} (hinVain : ¬ Log.All InVain log) :
      MirrorEnds spec m Attempt.activated c log

section Mirror

variable {spec : ModelSpec} {m : Manager} (front : Log) {c : Coroutine}

theorem KeptOrLost.append {m' m'' : Manager} {log more : Log}
    (h : KeptOrLost spec m m' log) (hmore : Log.None Loses more)
    (hread : m''.modelStorage.read (fileFor spec.fileName) =
      m'.modelStorage.read (fileFor spec.fileName)) :
    KeptOrLost spec m m'' (log ++ more) := by
  rcases h with ⟨hlog, hkept⟩ | ⟨hlog, hpresent, hlost⟩
  · exact Or.inl ⟨none_append.mpr ⟨hlog, hmore⟩, hread.trans hkept⟩
  · exact Or.inr ⟨fun h => hlog (none_append.mp h).left, hpresent, hread.trans hlost⟩

theorem read_file_delete_temp (d : Directory) (name : Text) :
    (d.delete (tempFor name)).read (fileFor name) = d.read (fileFor name) :=
  Directory.read_delete_of_ne (Ne.symm (tempFor_ne_fileFor name)) d

theorem present_delete_self (d : Directory) (name : Text) :
    (d.delete name).present name = false := by
  rw [Directory.present, Directory.read_delete_self]
  rfl

theorem downloadCancelled_ends (e : Failure) (hm : Transferred spec m c.manager)
    (hpromotes : Log.None Promotes front) (hclean : Log.All CleansUp front)
    (hkept : KeptOrLost spec m c.manager front) :
    Leads exec (downloadCancelled (tempFor spec.fileName) e)
      (fun r c' log => MirrorEnds spec m r c' (front ++ log)) c := by
  apply leads_perform
  intro a
  apply leads_perform
  intro a'
  apply leads_done
  apply MirrorEnds.cancelled
  · exact (hm.delete_temp).setTransfer TransferState.Idle
  · exact present_delete_self _ _
  · rfl
  · exact none_append.mpr ⟨hpromotes, by simp [Promotes, Finalizes]⟩
  · exact all_append.mpr ⟨hclean, by simp [CleansUp]⟩
  · exact hkept.append (by simp [Loses]) (read_file_delete_temp _ _)

theorem downloadCancelled_promoted (e : Failure) (hm : Transferred spec m c.manager)
    (hpromotes : ¬ Log.None Promotes front) (hclean : Log.All CleansUp front)
    (hrepeats : forall m₀ : Manager, Log.All (Repeats m₀) front <->
      c.manager.modelStorage.read (fileFor spec.fileName) =
        m₀.modelStorage.read (fileFor spec.fileName)) :
    Leads exec (downloadCancelled (tempFor spec.fileName) e)
      (fun r c' log => MirrorEnds spec m r c' (front ++ log)) c := by
  apply leads_perform
  intro a
  apply leads_perform
  intro a'
  apply leads_done
  apply MirrorEnds.promoted
  · exact (hm.delete_temp).setTransfer TransferState.Idle
  · exact present_delete_self _ _
  · rfl
  · exact fun h => hpromotes (none_append.mp h).left
  · exact all_append.mpr ⟨hclean, by simp [CleansUp]⟩
  · intro m₀
    rw [all_append, hrepeats m₀]
    change _ <-> (c.manager.modelStorage.delete (tempFor spec.fileName)).read
      (fileFor spec.fileName) = _
    rw [read_file_delete_temp]
    exact and_iff_left (by simp [Repeats])

theorem mirrorFailed_ends {e : Failure} (he : e.cancellation = false)
    (hc : c.cancelled = false) (hm : Transferred spec m c.manager)
    (htransfer : c.manager.transfer ≠ TransferState.Idle)
    (hpromotes : Log.None Promotes front) (hclean : Log.All CleansUp front)
    (hkept : KeptOrLost spec m c.manager front) :
    Leads exec (mirrorFailed (tempFor spec.fileName) e)
      (fun r c' log => MirrorEnds spec m r c' (front ++ log)) c := by
  rw [mirrorFailed, he, if_neg Bool.false_ne_true]
  simp only [withContext, operation_bind]
  refine leads_withContext hc ?_ ?_ ?_
  · intro a ha
    apply leads_done
    apply MirrorEnds.interrupted
    · exact htransfer
    · intro hall
      have h := (all_append.mp hall).right
      simp [CleansUp, ha] at h
  · intro a ha
    apply leads_done
    apply MirrorEnds.interrupted
    · exact htransfer
    · intro hall
      have h := (all_append.mp hall).right
      simp [CleansUp, ha] at h
  · intro a ha
    apply leads_done
    apply MirrorEnds.failed
    · exact hc
    · exact hm.delete_temp
    · exact present_delete_self _ _
    · exact htransfer
    · exact none_append.mpr ⟨hpromotes, by simp [Promotes, Finalizes]⟩
    · exact all_append.mpr ⟨hclean, by simp [CleansUp, ha]⟩
    · exact hkept.append (by simp [Loses]) (read_file_delete_temp _ _)

theorem run_download (spec : ModelSpec) (url : Text) (a : Answer) {m : Manager}
    (htransfer : m.transfer ≠ TransferState.Idle) :
    Transferred spec m
        ((Block.download url spec.sizeBytes (tempFor spec.fileName)
          spec.displayName).run a m).2 ∧
      ((Block.download url spec.sizeBytes (tempFor spec.fileName)
        spec.displayName).run a m).2.transfer ≠ TransferState.Idle ∧
      ((Block.download url spec.sizeBytes (tempFor spec.fileName)
        spec.displayName).run a m).2.modelStorage.read (fileFor spec.fileName) =
          m.modelStorage.read (fileFor spec.fileName) := by
  have hread : forall name, name ≠ tempFor spec.fileName ->
      ((Block.download url spec.sizeBytes (tempFor spec.fileName)
        spec.displayName).run a m).2.modelStorage.read name =
          m.modelStorage.read name := by
    intro name hname
    simp only [Block.run, Manager.setTransfer, Manager.setModelStorage]
    cases a.downloaded with
    | none => rfl
    | some bytes => exact Directory.read_write_of_ne hname bytes _
  constructor
  · exact ⟨rfl, fun name htemp _ => hread name htemp⟩
  constructor
  · simp only [Block.run, Manager.setTransfer]
    cases a.progress.getLast? with
    | none => exact htransfer
    | some p => simp
  · exact hread _ (Ne.symm (tempFor_ne_fileFor spec.fileName))

theorem download_cancellation {url temp displayName : Text} {expectedSize : Nat}
    {a : Answer} {m : Manager} {e : Failure}
    (h : ((Block.download url expectedSize temp displayName).run a m).1 =
      Except.error e) : e.cancellation = false := by
  simp only [Block.run] at h
  cases hfails : a.downloadFails with
  | none =>
      rw [hfails] at h
      cases h
  | some message =>
      rw [hfails] at h
      cases h
      rfl

theorem KeptOrLost.refused {m' m'' : Manager} {log : Log}
    {e : ManagerOp × Answer × Coroutine} (h : KeptOrLost spec m m' log)
    (hloses : Loses e.1 e.2.1 e.2.2 =
      m'.modelStorage.present (fileFor spec.fileName))
    (hread : m''.modelStorage.read (fileFor spec.fileName) = none) :
    KeptOrLost spec m m'' (log ++ [e]) := by
  cases hpresent : m'.modelStorage.present (fileFor spec.fileName) with
  | false =>
      rw [hpresent] at hloses
      apply h.append (by simp [hloses])
      rw [hread]
      rw [Directory.present, Option.isSome_eq_false_iff,
        Option.isNone_iff_eq_none] at hpresent
      exact hpresent.symm
  | true =>
      rw [hpresent] at hloses
      rw [Directory.present, Option.isSome_iff_ne_none] at hpresent
      apply Or.inr
      constructor
      · intro hnone
        have hlast := (none_append.mp hnone).right
        simp [hloses] at hlast
      constructor
      · rcases h with ⟨_, hkept⟩ | ⟨_, _, hlost⟩
        · rw [<- hkept]
          exact hpresent
        · exact absurd hlost hpresent
      · exact hread

theorem finalize_ends {next : Except Failure Text -> ManagerProgram Attempt}
    (hnextError : forall e,
      next (Except.error e) = mirrorFailed (tempFor spec.fileName) e)
    (hnextOk : forall file, exists rest : ManagerProgram Unit,
      next (Except.ok file) = (rest >>= fun _ => pure Attempt.activated))
    (hc : c.cancelled = false)
    (hgguf : isGguf c.manager.modelStorage (tempFor spec.fileName) = true)
    (hm : Transferred spec m c.manager)
    (htransfer : c.manager.transfer ≠ TransferState.Idle)
    (hpromotes : Log.None Promotes front) (hclean : Log.All CleansUp front)
    (hrepeats : forall m₀, Log.All (Repeats m₀) front)
    (hkept : KeptOrLost spec m c.manager front) :
    Leads exec
      (perform (ManagerOp.withContext
        (Block.finalize (tempFor spec.fileName) spec.fileName)) next)
      (fun r c' log => MirrorEnds spec m r c' (front ++ log)) c := by
  rcases finalize_refused hgguf spec.fileName with ⟨⟨message, herror⟩, hlost, hrest⟩
  rcases finalize_promotes hgguf with ⟨hok, hpromoted, hothers⟩
  refine leads_withContext hc ?_ ?_ ?_
  · -- The block has not run.
    intro a ha
    rw [hnextError]
    refine leads_append (R := MirrorEnds spec m)
      (downloadCancelled_ends _ a.cancellation hm ?_ ?_ ?_)
    · exact none_append.mpr ⟨hpromotes, by simp [Promotes, Finalizes, ha]⟩
    · exact all_append.mpr ⟨hclean, by simp [CleansUp]⟩
    · exact hkept.append (by simp [Loses, Finalizes, ha]) rfl
  · -- The block has run, to be thrown away.
    intro a ha
    rw [hnextError]
    cases hrefused : a.renameRefused with
    | true =>
        refine leads_append (R := MirrorEnds spec m)
          (downloadCancelled_ends _ a.cancellation ?_ ?_ ?_ ?_)
        · apply hm.setModelStorage
          intro name _ hfile
          rw [hrefused]
          exact hrest name hfile
        · exact none_append.mpr ⟨hpromotes, by simp [Promotes, hrefused]⟩
        · exact all_append.mpr ⟨hclean, by simp [CleansUp]⟩
        · apply hkept.refused
          · simp [Loses, Finalizes, hc, ha, hgguf, hrefused]
          · change (finalize (tempFor spec.fileName) spec.fileName a.renameRefused
              c.manager.modelStorage).2.read (fileFor spec.fileName) = none
            rw [hrefused]
            exact hlost
    | false =>
        refine leads_append (R := MirrorEnds spec m)
          (downloadCancelled_promoted _ a.cancellation ?_ ?_ ?_ ?_)
        · apply hm.setModelStorage
          intro name htemp hfile
          rw [hrefused]
          exact hothers name htemp hfile
        · intro hnone
          have hlast := (none_append.mp hnone).right
          simp [Promotes, Finalizes, hc, ha, hgguf, hrefused] at hlast
        · exact all_append.mpr ⟨hclean, by simp [CleansUp]⟩
        · intro m₀
          rw [all_append, and_iff_right (hrepeats m₀)]
          simp only [Block.run, Manager.setModelStorage, hrefused, hpromoted]
          simp [Repeats, Promotes, Finalizes, hc, ha, hgguf, hrefused]
  · intro a ha
    cases hrefused : a.renameRefused with
    | true =>
        have hresult : ((Block.finalize (tempFor spec.fileName) spec.fileName).run a
            c.manager).1 = Except.error (exception message) := by
          simp only [Block.run, hrefused, herror]
          rfl
        rw [hresult, hnextError]
        refine leads_append (R := MirrorEnds spec m)
          (mirrorFailed_ends _ rfl hc ?_ htransfer ?_ ?_ ?_)
        · apply hm.setModelStorage
          intro name _ hfile
          rw [hrefused]
          exact hrest name hfile
        · exact none_append.mpr ⟨hpromotes, by simp [Promotes, hrefused]⟩
        · exact all_append.mpr ⟨hclean, by simp [CleansUp]⟩
        · apply hkept.refused
          · simp [Loses, Finalizes, hc, ha, hgguf, hrefused]
          · change (finalize (tempFor spec.fileName) spec.fileName a.renameRefused
              c.manager.modelStorage).2.read (fileFor spec.fileName) = none
            rw [hrefused]
            exact hlost
    | false =>
        have hresult : ((Block.finalize (tempFor spec.fileName) spec.fileName).run a
            c.manager).1 = Except.ok (fileFor spec.fileName) := by
          simp only [Block.run, hrefused, hok]
          rfl
        rcases hnextOk (fileFor spec.fileName) with ⟨rest, hrest⟩
        rw [hresult, hrest]
        apply leads_bind
        intro _
        apply leads_done
        apply MirrorEnds.activated
        intro hall
        have hlast := (all_append.mp hall).right
        simp [InVain, Promotes, Finalizes, hc, ha, hgguf, hrefused] at hlast

theorem tryMirror_ends (url : Text) (hc : c.cancelled = false)
    (htransfer : c.manager.transfer ≠ TransferState.Idle) :
    Leads exec (tryMirror spec (tempFor spec.fileName) url)
      (MirrorEnds spec c.manager) c := by
  simp only [tryMirror, withContext, operation_bind]
  refine leads_withContext hc ?_ ?_ ?_
  · intro a ha
    refine downloadCancelled_ends [_] a.cancellation
      (Transferred.refl c.manager) ?_ ?_ ?_
    · simp [Promotes, Finalizes]
    · simp [CleansUp]
    · exact Or.inl ⟨by simp [Loses], rfl⟩
  · intro a ha
    rcases run_download spec url a htransfer with ⟨hm, _, hread⟩
    refine downloadCancelled_ends [_] a.cancellation hm ?_ ?_ ?_
    · simp [Promotes, Finalizes]
    · simp [CleansUp]
    · exact Or.inl ⟨by simp [Loses], hread⟩
  · intro a ha
    rcases run_download spec url a htransfer with ⟨hm, hdownloading, hread⟩
    generalize hresult : ((Block.download url spec.sizeBytes
      (tempFor spec.fileName) spec.displayName).run a c.manager).1 = r
    cases r with
    | error e =>
        refine mirrorFailed_ends [_] (download_cancellation hresult) hc hm
          hdownloading ?_ ?_ ?_
        · simp [Promotes, Finalizes]
        · simp [CleansUp]
        · exact Or.inl ⟨by simp [Loses], hread⟩
    | ok _ =>
        refine leads_perform ?_
        intro a'
        apply leads_ite
        · intro _
          refine mirrorFailed_ends [_, _] rfl hc hm hdownloading ?_ ?_ ?_
          · simp [Promotes, Finalizes]
          · simp [CleansUp]
          · exact Or.inl ⟨by simp [Loses], hread⟩
        · intro hgguf
          rw [Bool.not_eq_true, Bool.not_eq_false'] at hgguf
          refine finalize_ends [_, _] (fun _ => rfl) ?_ ?_ ?_ ?_ ?_ ?_ ?_ ?_ ?_
          · intro file
            refine ⟨do
              assign (Manager.setTransfer TransferState.Idle)
              let m ← read
              activate file spec.displayName file ModelSource.DOWNLOAD
                (m.modelStorage.length file), rfl⟩
          · exact hc
          · exact hgguf
          · exact hm
          · exact hdownloading
          · simp [Promotes, Finalizes]
          · simp [CleansUp]
          · simp [Repeats]
          · exact Or.inl ⟨by simp [Loses], hread⟩

end Mirror

/-!
# All mirrors
-/

def Judged (spec : ModelSpec) (m : Manager) (result : Option Failure) (m' : Manager)
    (log : Log) : Prop :=
  Log.All InVain log ->
    (Isolated spec m result m' <->
      Log.All CleansUp log ∧ Log.All (Repeats m) log ∧
        (Log.None Promotes log -> Log.None Loses log))

section Mirrors

variable {spec : ModelSpec} {m m' m'' : Manager} {log more : Log}

theorem KeptOrLost.trans (h : KeptOrLost spec m m' log)
    (h' : KeptOrLost spec m' m'' more) : KeptOrLost spec m m'' (log ++ more) := by
  rcases h' with ⟨hmore, hkept⟩ | ⟨hmore, hpresent, hlost⟩
  · exact h.append hmore hkept
  · apply Or.inr
    constructor
    · intro hnone
      exact hmore (none_append.mp hnone).right
    constructor
    · rcases h with ⟨_, hkept⟩ | ⟨_, _, hnone⟩
      · rw [<- hkept]
        exact hpresent
      · exact absurd hnone hpresent
    · exact hlost

def EndsAs (spec : ModelSpec) (result : Option Failure) (m' : Manager) : Prop :=
  (result = none -> exists message,
    m'.transfer = TransferState.Failed spec.displayName message) ∧
    (result ≠ none -> m'.transfer = TransferState.Idle)

theorem isolated_iff {result : Option Failure} (hm : Transferred spec m m')
    (htemp : m'.modelStorage.present (tempFor spec.fileName) = false)
    (hends : EndsAs spec result m') :
    Isolated spec m result m' <->
      m'.modelStorage.read (fileFor spec.fileName) =
        m.modelStorage.read (fileFor spec.fileName) := by
  constructor
  · intro h
    exact h.installed _ (Ne.symm (tempFor_ne_fileFor spec.fileName))
  · intro hfile
    refine ⟨hm.unchanged, ?_, htemp, hends.left, hends.right⟩
    intro name hname
    by_cases h : name = fileFor spec.fileName
    · rw [h]
      exact hfile
    · exact hm.others name hname h

theorem judged_of_kept {result : Option Failure} (hm : Transferred spec m m')
    (htemp : m'.modelStorage.present (tempFor spec.fileName) = false)
    (hends : EndsAs spec result m') (hpromotes : Log.None Promotes log)
    (hclean : Log.All CleansUp log) (hkept : KeptOrLost spec m m' log) :
    Judged spec m result m' log := by
  intro _
  rw [isolated_iff hm htemp hends]
  constructor
  · intro hfile
    refine ⟨hclean, hpromotes.repeats m, fun _ => ?_⟩
    rcases hkept with ⟨hlog, _⟩ | ⟨_, hpresent, hlost⟩
    · exact hlog
    · rw [hlost] at hfile
      exact absurd hfile.symm hpresent
  · intro h
    rcases hkept with ⟨_, hfile⟩ | ⟨hlog, _, _⟩
    · exact hfile
    · exact absurd (h.right.right hpromotes) hlog

theorem judged_of_promoted {result : Option Failure} (hm : Transferred spec m m')
    (htemp : m'.modelStorage.present (tempFor spec.fileName) = false)
    (hends : EndsAs spec result m') (hpromotes : ¬ Log.None Promotes log)
    (hclean : Log.All CleansUp log)
    (hrepeats : Log.All (Repeats m) log <->
      m'.modelStorage.read (fileFor spec.fileName) =
        m.modelStorage.read (fileFor spec.fileName)) :
    Judged spec m result m' log := by
  intro _
  rw [isolated_iff hm htemp hends, <- hrepeats]
  constructor
  · intro h
    exact ⟨hclean, h, fun hnone => absurd hnone hpromotes⟩
  · intro h
    exact h.right.left

/-- Whoever is cancelled during the clean-up leaves the transfer as it was. -/
theorem judged_of_interrupted {e : Failure}
    (htransfer : m'.transfer ≠ TransferState.Idle)
    (hclean : ¬ Log.All CleansUp log) : Judged spec m (some e) m' log := by
  intro _
  constructor
  · intro h
    exact absurd (h.cancelled (Option.some_ne_none e)) htransfer
  · intro h
    exact absurd h.left hclean

theorem endsAs_cancelled {e : Failure} (h : m'.transfer = TransferState.Idle) :
    EndsAs spec (some e) m' := by
  constructor
  · intro hnone
    cases hnone
  · intro _
    exact h

theorem tryMirrors_judged (urls : List Text) (lastError : Option Text)
    (front : Log) {c : Coroutine} (hc : c.cancelled = false)
    (hm : Transferred spec m c.manager)
    (htransfer : c.manager.transfer ≠ TransferState.Idle)
    (htemp : urls = [] ->
      c.manager.modelStorage.present (tempFor spec.fileName) = false)
    (hpromotes : Log.None Promotes front) (hclean : Log.All CleansUp front)
    (hkept : KeptOrLost spec m c.manager front) :
    Leads exec (tryMirrors spec (tempFor spec.fileName) urls lastError)
      (fun r c' log => Judged spec m r c'.manager (front ++ log)) c := by
  induction urls generalizing lastError front c with
  | nil =>
      apply leads_perform
      intro a
      apply leads_done
      apply judged_of_kept
      · exact hm.setTransfer _
      · exact htemp rfl
      · exact ⟨fun _ => ⟨_, rfl⟩, fun h => absurd rfl h⟩
      · exact none_append.mpr ⟨hpromotes, by simp [Promotes, Finalizes]⟩
      · exact all_append.mpr ⟨hclean, by simp [CleansUp]⟩
      · exact hkept.append (by simp [Loses]) rfl
  | cons url rest ih =>
      apply leads_bind
      refine leads_mono (tryMirror_ends url hc htransfer) ?_
      intro r c' log hends
      cases hends with
      | failed hc' hm' htemp' htransfer' hpromotes' hclean' hkept' =>
          refine leads_mono (ih _ _ hc' (hm.trans hm') htransfer' (fun _ => htemp')
            (none_append.mpr ⟨hpromotes, hpromotes'⟩)
            (all_append.mpr ⟨hclean, hclean'⟩) (hkept.trans hkept')) ?_
          intro r c'' log' h
          rwa [List.append_assoc] at h
      | cancelled hm' htemp' htransfer' hpromotes' hclean' hkept' =>
          apply leads_done
          rw [List.append_nil]
          exact judged_of_kept (hm.trans hm') htemp' (endsAs_cancelled htransfer')
            (none_append.mpr ⟨hpromotes, hpromotes'⟩)
            (all_append.mpr ⟨hclean, hclean'⟩) (hkept.trans hkept')
      | promoted hm' htemp' htransfer' hpromotes' hclean' hrepeats' =>
          apply leads_done
          rw [List.append_nil]
          apply judged_of_promoted (hm.trans hm') htemp' (endsAs_cancelled htransfer')
          · intro h
            exact hpromotes' (none_append.mp h).right
          · exact all_append.mpr ⟨hclean, hclean'⟩
          · rw [all_append, and_iff_right (hpromotes.repeats m)]
            exact hrepeats' m
      | interrupted htransfer' hclean' =>
          apply leads_done
          rw [List.append_nil]
          apply judged_of_interrupted htransfer'
          intro h
          exact hclean' (all_append.mp h).right
      | activated hinVain =>
          apply leads_done
          rw [List.append_nil]
          intro h
          exact absurd (all_append.mp h).right hinVain

end Mirrors

/-!
# Isolation
-/

def During (spec : ModelSpec) (m : Manager) (answers : List Answer)
    (ok : ManagerOp -> Answer -> Coroutine -> Bool) : Prop :=
  Along exec (fun o a c => ok o a c = true) (downloadModel spec) answers
    { manager := m }

instance (spec : ModelSpec) (m : Manager) (answers : List Answer)
    (ok : ManagerOp -> Answer -> Coroutine -> Bool) :
    Decidable (During spec m answers ok) :=
  inferInstanceAs (Decidable (Along exec (fun o a c => ok o a c = true)
    (downloadModel spec) answers { manager := m }))

def downloadEnd (spec : ModelSpec) (m : Manager) (answers : List Answer) :
    Option Failure × Manager :=
  let (result, c, _) :=
    run exec (downloadModel spec) answers { manager := m }
  (result, c.manager)

theorem downloadModel_judged (spec : ModelSpec) (m : Manager)
    (h : spec.urls = [] ->
      m.modelStorage.present (tempFor spec.fileName) = false) :
    Leads exec (downloadModel spec)
      (fun r c log => Judged spec m r c.manager log) { manager := m } := by
  apply leads_perform
  intro a
  refine tryMirrors_judged spec.urls none [_] ?_ ?_ ?_ ?_ ?_ ?_ ?_
  · rfl
  · exact (Transferred.refl m).setTransfer _
  · intro hidle
    cases hidle
  · exact h
  · simp [Promotes, Finalizes]
  · simp [CleansUp]
  · exact Or.inl ⟨by simp [Loses], rfl⟩

/-- Without a mirror, a temp file from before stays. -/
theorem not_isolated_of_no_mirror {spec : ModelSpec} {m : Manager}
    (hurls : spec.urls = [])
    (htemp : m.modelStorage.present (tempFor spec.fileName) = true)
    (answers : List Answer) :
    ¬ Isolated spec m (downloadEnd spec m answers).1 (downloadEnd spec m answers).2 := by
  intro h
  have hgone := h.temp
  simp only [downloadEnd, downloadModel, hurls, tryMirrors, assign, operation_bind,
    run] at hgone
  exact Bool.false_ne_true (hgone.symm.trans htemp)

/--
A download without a new model: no mirror brings a valid file, or the caller is
cancelled before one is promoted, at the latest while `finalize` runs.  Everything
is then as it was before, and the transfer says how it ended, exactly if there was
a mirror to try or no temp file to begin with; nobody is cancelled while a failed
mirror is being cleaned up; what a cancelled `finalize` promotes is what the file
held before; and where nothing is promoted, no refused rename costs the file that
was to be replaced.
-/
theorem download_isolated (spec : ModelSpec) (m : Manager) (answers : List Answer)
    (hinVain : During spec m answers InVain) :
    Isolated spec m (downloadEnd spec m answers).1 (downloadEnd spec m answers).2 <->
      (spec.urls ≠ [] ∨ m.modelStorage.present (tempFor spec.fileName) = false) ∧
        During spec m answers CleansUp ∧ During spec m answers (Repeats m) ∧
        ((During spec m answers fun o a c => !Promotes o a c) ->
          During spec m answers fun o a c => !Loses o a c) := by
  by_cases hmirror : spec.urls ≠ [] ∨
      m.modelStorage.present (tempFor spec.fileName) = false
  · rw [and_iff_right hmirror]
    have hjudged := downloadModel_judged spec m
      (fun hurls => hmirror.resolve_left (not_not.mpr hurls)) answers
    simp only [During, along_iff_trace, Bool.not_eq_true'] at hinVain ⊢
    exact hjudged hinVain
  · rw [not_or, not_not, Bool.not_eq_false] at hmirror
    constructor
    · intro h
      exact absurd h (not_isolated_of_no_mirror hmirror.left hmirror.right answers)
    · intro h
      rcases h.left with hurls | htemp
      · exact absurd hmirror.left hurls
      · exact Bool.noConfusion (hmirror.right.symm.trans htemp)

def withModel : Manager :=
  step (atStart none [] {} {}) importGguf

def twoMirrors : ModelSpec where
  displayName := "M".toList
  fileName := "m.gguf".toList
  sizeBytes := 5
  urls := ["https://a/m.gguf".toList, "https://b/m.gguf".toList]

def brokenThenCancelled : List Answer :=
  [{}, { downloaded := some magic, downloadFails := some none }, {},
    { downloaded := some gguf, delivery := Delivery.cancelledAfter }]

theorem download_isolated_brokenThenCancelled :
    Isolated twoMirrors withModel
      (downloadEnd twoMirrors withModel brokenThenCancelled).1
      (downloadEnd twoMirrors withModel brokenThenCancelled).2 := by
  apply (download_isolated twoMirrors withModel brokenThenCancelled
    (by decide +kernel)).mpr
  refine ⟨Or.inl (by decide), by decide +kernel, by decide +kernel, ?_⟩
  intro _
  decide +kernel

def cancelledCleanUp : List Answer :=
  [{}, { downloaded := some magic, downloadFails := some none },
    { delivery := Delivery.cancelledBefore }]

def withPart : Manager :=
  withModel.setModelStorage
    (withModel.modelStorage.write "m.gguf.part".toList magic)

def noMirror : ModelSpec :=
  { twoMirrors with urls := [] }

def refusedThenCancelled : List Answer :=
  [{}, { downloaded := some gguf }, {}, { renameRefused := true }, {},
    { delivery := Delivery.cancelledBefore }]

def cancelledPromotion : List Answer :=
  [{}, { downloaded := some (gguf ++ gguf) }, {},
    { delivery := Delivery.cancelledAfter }]

/-- The transfer stays at downloading and the temp file is left, a temp file is
left, an installed file is lost, or an installed file is replaced. -/
theorem download_isolated_fails :
    (During twoMirrors withModel cancelledCleanUp InVain ∧
      ¬ Isolated twoMirrors withModel
        (downloadEnd twoMirrors withModel cancelledCleanUp).1
        (downloadEnd twoMirrors withModel cancelledCleanUp).2) ∧
    (During noMirror withPart [] InVain ∧
      ¬ Isolated noMirror withPart (downloadEnd noMirror withPart []).1
        (downloadEnd noMirror withPart []).2) ∧
    (During twoMirrors withModel refusedThenCancelled InVain ∧
      ¬ Isolated twoMirrors withModel
        (downloadEnd twoMirrors withModel refusedThenCancelled).1
        (downloadEnd twoMirrors withModel refusedThenCancelled).2) ∧
    (During twoMirrors withModel cancelledPromotion InVain ∧
      ¬ Isolated twoMirrors withModel
        (downloadEnd twoMirrors withModel cancelledPromotion).1
        (downloadEnd twoMirrors withModel cancelledPromotion).2) := by
  have hname : "m.gguf".toList ≠ tempFor "m.gguf".toList := by
    decide
  refine ⟨⟨?_, ?_⟩, ⟨?_, ?_⟩, ⟨?_, ?_⟩, ⟨?_, ?_⟩⟩
  · decide +kernel
  · intro h
    exact absurd (h.cancelled (by decide +kernel)) (by decide +kernel)
  · decide +kernel
  · intro h
    exact absurd h.temp (by decide +kernel)
  · decide +kernel
  · intro h
    exact absurd (h.installed "m.gguf".toList hname) (by decide +kernel)
  · decide +kernel
  · intro h
    exact absurd (h.installed "m.gguf".toList hname) (by decide +kernel)

end ModelManager
end DomainAI
