import DomainAI.Inference.FailedDownloads
import DomainAI.Inference.ModelDownloader

/-!
# Mixed downloads

Runs of the model manager over a network of mirrors.  A temp file outlives the
call that wrote it, and the next download goes on with it, whatever it holds.
-/

namespace DomainAI
namespace ModelManager

open Library Library.Program ModelStorage ModelDownloader

/-!
# Runs over a network
-/

/-- What the surroundings contribute, the replies to a download among it. -/
structure NetAnswer extends Answer where
  replies : List Reply := []
  deriving DecidableEq, Repr, Inhabited

/-- What the replies to a download make of its temp file. -/
def NetAnswer.settle (content : Text -> Bytes) (m : Manager) (a : NetAnswer) :
    ManagerOp -> Answer
  | ManagerOp.withContext (Block.download url _ temp _) =>
      let (result, left) := ModelDownloader.download content url a.replies
        (m.modelStorage.read temp)
      { a.toAnswer with
        downloaded := left
        downloadFails := match result with
          | Except.ok () => none
          | Except.error message => some message }
  | _ => a.toAnswer

def netExec (content : Text -> Bytes) (o : ManagerOp) (a : NetAnswer)
    (c : Coroutine) : o.Result × Coroutine :=
  exec o (a.settle content c.manager o) c

/-- One operation, or as much of it as the process lives to see. -/
structure NetEvent where
  operation : Operation
  answers : List NetAnswer := []
  dies : Option Nat := none
  deriving DecidableEq, Repr

def restarted (m : Manager) : Manager :=
  atStart m.modelStore m.modelStorage m.gpuGuard m.settings

def netStep (content : Text -> Bytes) (m : Manager) (e : NetEvent) : Manager :=
  match e.dies with
  | none =>
      (run (netExec content) e.operation.program e.answers
        { manager := m }).2.1.manager
  | some k =>
      restarted (stopAfter (netExec content) e.operation.program k e.answers
        { manager := m }).manager

def performed (content : Text -> Bytes) (m : Manager) (e : NetEvent) :
    List (ManagerOp × NetAnswer × Coroutine) :=
  let log := trace (netExec content) e.operation.program e.answers { manager := m }
  match e.dies with
  | none => log
  | some k => log.take k

/-- What is promoted is the content of one of the mirrors. -/
def Unmixed (content : Text -> Bytes) (spec : ModelSpec) (o : ManagerOp)
    (a : NetAnswer) (c : Coroutine) : Prop :=
  Promotes o a.toAnswer c = true -> exists url, url ∈ spec.urls ∧
    (netExec content o a c).2.manager.modelStorage.read (fileFor spec.fileName) =
      some (content url)

def Operation.spec : Operation -> Option ModelSpec
  | Operation.downloadModel spec => some spec
  | _ => none

def PromotesWhole (content : Text -> Bytes) (m : Manager) (e : NetEvent) : Prop :=
  forall spec, spec ∈ e.operation.spec ->
    forall step, step ∈ performed content m e ->
      Unmixed content spec step.1 step.2.1 step.2.2

instance (content : Text -> Bytes) (spec : ModelSpec) (o : ManagerOp) (a : NetAnswer)
    (c : Coroutine) : Decidable (Unmixed content spec o a c) :=
  inferInstanceAs (Decidable (Promotes o a.toAnswer c = true -> exists url,
    url ∈ spec.urls ∧
      (netExec content o a c).2.manager.modelStorage.read (fileFor spec.fileName) =
        some (content url)))

instance (content : Text -> Bytes) (m : Manager) (e : NetEvent) :
    Decidable (PromotesWhole content m e) :=
  inferInstanceAs (Decidable (forall spec, spec ∈ e.operation.spec ->
    forall step, step ∈ performed content m e ->
      Unmixed content spec step.1 step.2.1 step.2.2))

/-- No body is cut short without notice. -/
def NetAnswer.Whole (a : NetAnswer) : Prop :=
  forall reply, reply ∈ a.replies -> reply.whole = true

instance (a : NetAnswer) : Decidable a.Whole :=
  inferInstanceAs (Decidable (forall reply, reply ∈ a.replies -> reply.whole = true))

def NetEvent.first (e : NetEvent) : NetAnswer :=
  e.answers.tail.headD default

/-- The first mirror is asked, and the first body that it sends goes on with the
temp file. -/
def NetEvent.Resumes (e : NetEvent) (url : Text) : Prop :=
  (forall k, k ∈ e.dies -> 2 ≤ k) ∧ e.first.delivery = Delivery.returned ∧
    isAllowed url = true ∧ continues (MAX_RETRIES - 1) e.first.replies = true

instance (e : NetEvent) (url : Text) : Decidable (e.Resumes url) :=
  inferInstanceAs (Decidable ((forall k, k ∈ e.dies -> 2 ≤ k) ∧
    e.first.delivery = Delivery.returned ∧
      isAllowed url = true ∧ continues (MAX_RETRIES - 1) e.first.replies = true))

/-- Where the first mirror resumes a temp file, the two make up the content of one
of the mirrors. -/
def Fits (content : Text -> Bytes) (spec : ModelSpec) (m : Manager)
    (e : NetEvent) : Prop :=
  forall url, url ∈ spec.urls.head? -> e.Resumes url ->
    exists url', url' ∈ spec.urls ∧
      expected (content url) (m.modelStorage.read (tempFor spec.fileName)) =
        content url'

instance (content : Text -> Bytes) (spec : ModelSpec) (m : Manager) (e : NetEvent) :
    Decidable (Fits content spec m e) :=
  inferInstanceAs (Decidable (forall url, url ∈ spec.urls.head? -> e.Resumes url ->
    exists url', url' ∈ spec.urls ∧
      expected (content url) (m.modelStorage.read (tempFor spec.fileName)) =
        content url'))

/-- The same for every download, and no body is cut short without notice. -/
def Resumable (content : Text -> Bytes) (m : Manager) (e : NetEvent) : Prop :=
  forall spec, spec ∈ e.operation.spec ->
    (forall a, a ∈ e.answers -> a.Whole) ∧ Fits content spec m e

instance (content : Text -> Bytes) (m : Manager) (e : NetEvent) :
    Decidable (Resumable content m e) :=
  inferInstanceAs (Decidable (forall spec, spec ∈ e.operation.spec ->
    (forall a, a ∈ e.answers -> a.Whole) ∧ Fits content spec m e))

theorem operation_of_spec {o : Operation} {spec : ModelSpec} (h : spec ∈ o.spec) :
    o = Operation.downloadModel spec := by
  cases o with
  | downloadModel spec' =>
      cases h
      rfl
  | _ => cases h

/-!
# A mirror in two parts
-/

/-- From a finished download on. -/
def promoteTemp (spec : ModelSpec) (temp : Text) : ManagerProgram Attempt := do
  let m ← read
  if !isGguf m.modelStorage temp then
    mirrorFailed temp (exception (some "downloaded file is not a valid GGUF".toList))
  else
    match ← withContext (Block.finalize temp spec.fileName) with
    | Except.error e => mirrorFailed temp e
    | Except.ok file =>
        assign (Manager.setTransfer TransferState.Idle)
        let m ← read
        activate file spec.displayName file ModelSource.DOWNLOAD
          (m.modelStorage.length file)
        pure Attempt.activated

def afterDownload (spec : ModelSpec) (temp : Text) :
    Except Failure Unit -> ManagerProgram Attempt
  | Except.error e => mirrorFailed temp e
  | Except.ok () => promoteTemp spec temp

def afterMirror (spec : ModelSpec) (temp : Text) (rest : List Text) :
    Attempt -> ManagerProgram (Option Failure)
  | Attempt.activated => pure none
  | Attempt.cancelled e => pure (some e)
  | Attempt.failed message => tryMirrors spec temp rest message

theorem tryMirrors_cons (spec : ModelSpec) (temp url : Text) (rest : List Text)
    (lastError : Option Text) :
    tryMirrors spec temp (url :: rest) lastError =
      perform (ManagerOp.withContext
        (Block.download url spec.sizeBytes temp spec.displayName))
        fun result => afterDownload spec temp result >>= afterMirror spec temp rest := by
  have hmirror : tryMirror spec temp url =
      perform (ManagerOp.withContext
        (Block.download url spec.sizeBytes temp spec.displayName))
        (afterDownload spec temp) := by
    simp only [tryMirror, withContext, operation_bind]
    congr 1
    funext result
    rcases result with e | _
    · rfl
    · rfl
  rw [tryMirrors, hmirror, perform_bind]
  rfl

/-!
# What a call promotes
-/

section Promotion

variable {content : Text -> Bytes} {spec : ModelSpec} {c : Coroutine}

abbrev AnsweredWhole (_ : ManagerOp) (a : NetAnswer) (_ : Coroutine) : Prop :=
  a.Whole

abbrev Promises (content : Text -> Bytes) (spec : ModelSpec) {alpha : Type}
    (p : ManagerProgram alpha) (Q : alpha -> Coroutine -> Prop) (c : Coroutine) : Prop :=
  Guarantees (netExec content) AnsweredWhole (Unmixed content spec) p Q c

theorem unmixed_of_not_finalizes {o : ManagerOp} {a : NetAnswer}
    (h : Finalizes o a.toAnswer c = false) : Unmixed content spec o a c := by
  intro hpromotes
  rw [Promotes, h] at hpromotes
  cases hpromotes

theorem promises_loadsOnly {alpha : Type} {p : ManagerProgram alpha} (h : LoadsOnly p) :
    Promises content spec p (fun _ _ => True) c := by
  refine guarantees_mono (guarantees_of_obeys (I := fun _ => True) ?_ h trivial)
    fun _ _ _ => trivial
  intro o a c' _ ho _
  refine ⟨?_, trivial, trivial⟩
  apply unmixed_of_not_finalizes
  cases o with
  | withContext block =>
      cases block with
      | finalize temp name => cases ho
      | _ => rfl
  | _ => rfl

theorem promises_trace {alpha : Type} {p : ManagerProgram alpha}
    {Q : alpha -> Coroutine -> Prop} {answers : List NetAnswer}
    (h : Promises content spec p Q c) (hwhole : forall a, a ∈ answers -> a.Whole) :
    forall step, step ∈ trace (netExec content) p answers c ->
      Unmixed content spec step.1 step.2.1 step.2.2 := by
  apply guarantees_trace h
  apply trace_fault _ hwhole
  intro reply hreply
  cases hreply

theorem promises_withContext {alpha : Type} {block : Block}
    {next : Except Failure block.Result -> ManagerProgram alpha}
    {Q : alpha -> Coroutine -> Prop}
    (hgood : forall a, Unmixed content spec (ManagerOp.withContext block) a c)
    (hcancelled : forall e c', e.cancellation = true ->
      Promises content spec (next (Except.error e)) Q c')
    (hreturned : forall a : NetAnswer, a.Whole ->
      Promises content spec
        (next (block.run (a.settle content c.manager (ManagerOp.withContext block))
          c.manager).1) Q
        { c with manager :=
          (block.run (a.settle content c.manager (ManagerOp.withContext block))
            c.manager).2 }) :
    Promises content spec (perform (ManagerOp.withContext block) next) Q c := by
  apply guarantees_perform
  intro a ha
  refine ⟨hgood a, ?_⟩
  simp only [netExec, exec]
  split
  · exact hcancelled _ _ rfl
  · split
    · exact hreturned a ha
    · exact hcancelled _ _ rfl
    · exact hcancelled _ _ rfl

def Cleaned (spec : ModelSpec) (attempt : Attempt) (c : Coroutine) : Prop :=
  forall message, attempt = Attempt.failed message ->
    c.manager.modelStorage.read (tempFor spec.fileName) = none

theorem mirrorFailed_promises (e : Failure) (c : Coroutine) :
    Promises content spec (mirrorFailed (tempFor spec.fileName) e) (Cleaned spec) c := by
  apply guarantees_ite
  · intro _
    apply guarantees_perform
    intro a _
    refine ⟨unmixed_of_not_finalizes rfl, ?_⟩
    apply guarantees_perform
    intro a' _
    refine ⟨unmixed_of_not_finalizes rfl, ?_⟩
    apply guarantees_done
    intro message h
    cases h
  · intro _
    apply promises_withContext
    · intro a
      exact unmixed_of_not_finalizes rfl
    · intro e' c' _
      apply guarantees_done
      intro message h
      cases h
    · intro a _
      apply guarantees_done
      intro message _
      exact Directory.read_delete_self _ _

theorem finalize_unmixed {url : Text} (hurl : url ∈ spec.urls)
    (htemp : c.manager.modelStorage.read (tempFor spec.fileName) =
      some (content url)) (a : NetAnswer) :
    Unmixed content spec (ManagerOp.withContext
      (Block.finalize (tempFor spec.fileName) spec.fileName)) a c := by
  intro hpromotes
  simp only [Promotes, Finalizes, Bool.and_eq_true, Bool.not_eq_true',
    bne_iff_ne] at hpromotes
  rcases hpromotes with ⟨⟨⟨hcancelled, hdelivery⟩, hgguf⟩, hrefused⟩
  refine ⟨url, hurl, ?_⟩
  have hmanager : (netExec content (ManagerOp.withContext
      (Block.finalize (tempFor spec.fileName) spec.fileName)) a c).2.manager =
      ((Block.finalize (tempFor spec.fileName) spec.fileName).run a.toAnswer
        c.manager).2 := by
    simp only [netExec, NetAnswer.settle, exec, hcancelled, Bool.false_eq_true, if_false]
    cases h : a.delivery with
    | returned => rfl
    | cancelledBefore => exact absurd h hdelivery
    | cancelledAfter => rfl
  rw [hmanager]
  simp only [Block.run, Manager.setModelStorage, hrefused]
  rw [(finalize_promotes hgguf).right.left, htemp]

theorem promoteTemp_promises {url : Text} (hurl : url ∈ spec.urls)
    (htemp : c.manager.modelStorage.read (tempFor spec.fileName) =
      some (content url)) :
    Promises content spec (promoteTemp spec (tempFor spec.fileName)) (Cleaned spec) c := by
  apply guarantees_perform
  intro a _
  refine ⟨unmixed_of_not_finalizes rfl, ?_⟩
  apply guarantees_ite
  · intro _
    exact mirrorFailed_promises _ _
  · intro _
    apply promises_withContext
    · exact finalize_unmixed hurl htemp
    · intro e c' _
      exact mirrorFailed_promises e c'
    · intro a _
      generalize (Block.run _ (Block.finalize (tempFor spec.fileName) spec.fileName)
        _).1 = result
      rcases result with e | file
      · exact mirrorFailed_promises e _
      · apply guarantees_perform
        intro a _
        refine ⟨unmixed_of_not_finalizes rfl, ?_⟩
        apply guarantees_perform
        intro a _
        refine ⟨unmixed_of_not_finalizes rfl, ?_⟩
        refine guarantees_bind (p := activate file spec.displayName file
          ModelSource.DOWNLOAD _) ?_
        refine guarantees_mono (promises_loadsOnly (activate_loadsOnly _ _ _ _ _)) ?_
        intro _ c' _
        apply guarantees_done
        intro message h
        cases h

theorem afterDownload_promises {result : Except Failure Unit}
    (h : result = Except.ok () -> exists url, url ∈ spec.urls ∧
      c.manager.modelStorage.read (tempFor spec.fileName) = some (content url)) :
    Promises content spec (afterDownload spec (tempFor spec.fileName) result)
      (Cleaned spec) c := by
  rcases result with e | _
  · exact mirrorFailed_promises e c
  · rcases h rfl with ⟨url, hurl, htemp⟩
    exact promoteTemp_promises hurl htemp

theorem netExec_download {url temp name : Text} {expectedSize : Nat} {a : NetAnswer}
    (h : (netExec content (ManagerOp.withContext
      (Block.download url expectedSize temp name)) a c).1 = Except.ok ()) :
    a.delivery = Delivery.returned ∧
      (ModelDownloader.download content url a.replies
        (c.manager.modelStorage.read temp)).1 = Except.ok () ∧
      forall bytes, (ModelDownloader.download content url a.replies
          (c.manager.modelStorage.read temp)).2 = some bytes ->
        (netExec content (ManagerOp.withContext
          (Block.download url expectedSize temp name)) a
            c).2.manager.modelStorage.read temp = some bytes := by
  simp only [netExec, NetAnswer.settle, exec] at h ⊢
  generalize ModelDownloader.download content url a.replies
    (c.manager.modelStorage.read temp) = left at h ⊢
  rcases left with ⟨result, left⟩
  split at h
  · cases h
  · rename_i hcancelled
    rw [if_neg hcancelled]
    cases hdelivery : a.delivery with
    | returned =>
        simp only [hdelivery] at h ⊢
        cases result with
        | error message => cases h
        | ok _ =>
            refine ⟨trivial, rfl, ?_⟩
            intro bytes hbytes
            rw [hbytes]
            exact Directory.read_write_self _ _ _
    | cancelledBefore =>
        simp [hdelivery] at h
    | cancelledAfter =>
        simp [hdelivery] at h

theorem mirror_promises {result : Except Failure Unit} {rest : List Text}
    (h : result = Except.ok () -> exists url, url ∈ spec.urls ∧
      c.manager.modelStorage.read (tempFor spec.fileName) = some (content url))
    (hrest : forall message c',
      c'.manager.modelStorage.read (tempFor spec.fileName) = none ->
      Promises content spec (tryMirrors spec (tempFor spec.fileName) rest message)
        (fun _ _ => True) c') :
    Promises content spec
      (afterDownload spec (tempFor spec.fileName) result >>=
        afterMirror spec (tempFor spec.fileName) rest) (fun _ _ => True) c := by
  apply guarantees_bind
  refine guarantees_mono (afterDownload_promises h) ?_
  intro attempt c' hcleaned
  cases attempt with
  | activated => exact guarantees_done trivial
  | cancelled e => exact guarantees_done trivial
  | failed message => exact hrest message c' (hcleaned message rfl)

theorem tryMirrors_promises {urls : List Text}
    (hurls : forall url, url ∈ urls -> url ∈ spec.urls)
    (htemp : urls ≠ [] ->
      c.manager.modelStorage.read (tempFor spec.fileName) = none)
    (lastError : Option Text) :
    Promises content spec (tryMirrors spec (tempFor spec.fileName) urls lastError)
      (fun _ _ => True) c := by
  induction urls generalizing c lastError with
  | nil =>
      apply guarantees_perform
      intro a _
      exact ⟨unmixed_of_not_finalizes rfl, trivial⟩
  | cons url rest ih =>
      rw [tryMirrors_cons]
      apply guarantees_perform
      intro a ha
      refine ⟨unmixed_of_not_finalizes rfl, ?_⟩
      apply mirror_promises
      · intro hresult
        rcases netExec_download hresult with ⟨_, hok, hleft⟩
        refine ⟨url, hurls url List.mem_cons_self, hleft _ ?_⟩
        rcases download_ok ha hok with hanew | ⟨_, hlast⟩
        · exact hanew
        · rw [hlast, htemp (List.cons_ne_nil _ _)]
          rfl
      · intro message c' hnone
        exact ih (fun url h => hurls url (List.mem_cons_of_mem _ h)) (fun _ => hnone)
          message

end Promotion

/-!
# Runs
-/

section Runs

variable {content : Text -> Bytes} {spec : ModelSpec} {m : Manager}

theorem trace_downloadModel (spec : ModelSpec) (answers : List NetAnswer)
    (c : Coroutine) :
    trace (netExec content) (Operation.downloadModel spec).program answers c =
      (ManagerOp.assign (Manager.setTransfer
        (TransferState.Downloading spec.displayName none)), answers.headD default, c) ::
        trace (netExec content) (tryMirrors spec (tempFor spec.fileName) spec.urls none)
          answers.tail
          { c with
            manager := c.manager.setTransfer
              (TransferState.Downloading spec.displayName none) } := by
  change trace (netExec content) (downloadModel spec >>= fun _ => done ()) answers c = _
  rw [trace_bind]
  simp only [trace, List.append_nil]
  rfl

theorem mem_of_performed {e : NetEvent} {step : ManagerOp × NetAnswer × Coroutine}
    (h : step ∈ performed content m e) :
    step ∈ trace (netExec content) e.operation.program e.answers { manager := m } := by
  unfold performed at h
  split at h
  · exact h
  · exact List.mem_of_mem_take h

theorem promotesWhole_of_dies {e : NetEvent} {k : Nat} (hdies : e.dies = some k)
    (hk : k < 2) : PromotesWhole content m e := by
  intro spec hspec step hstep
  simp only [performed, hdies, operation_of_spec hspec, trace_downloadModel] at hstep
  have hk : k = 0 ∨ k = 1 := by
    omega
  rcases hk with rfl | rfl
  · cases hstep
  · rw [List.take_succ_cons, List.take_zero, List.mem_singleton] at hstep
    rw [hstep]
    exact unmixed_of_not_finalizes rfl

theorem whole_first {e : NetEvent} (h : forall a, a ∈ e.answers -> a.Whole) :
    e.first.Whole := by
  rw [NetEvent.first]
  cases htail : e.answers.tail with
  | nil =>
      intro reply hreply
      cases hreply
  | cons a rest =>
      apply h
      apply List.mem_of_mem_tail
      rw [htail]
      exact List.mem_cons_self

theorem firstMirror_unmixed {e : NetEvent} (hwhole : forall a, a ∈ e.answers -> a.Whole)
    (hlives : forall k, k ∈ e.dies -> 2 ≤ k) (hfits : Fits content spec m e) :
    forall step, step ∈ trace (netExec content)
        (tryMirrors spec (tempFor spec.fileName) spec.urls none) e.answers.tail
        { manager := m.setTransfer (TransferState.Downloading spec.displayName none) } ->
      Unmixed content spec step.1 step.2.1 step.2.2 := by
  have htail := fun a (ha : a ∈ e.answers.tail) => hwhole a (List.mem_of_mem_tail ha)
  cases hurls : spec.urls with
  | nil =>
      refine promises_trace (tryMirrors_promises ?_ ?_ none) htail
      · intro url h
        cases h
      · intro h
        exact absurd rfl h
  | cons url rest =>
      rw [tryMirrors_cons]
      intro step hstep
      rcases List.mem_cons.mp hstep with rfl | hlater
      · exact unmixed_of_not_finalizes rfl
      · refine promises_trace (mirror_promises ?_ ?_)
          (fun a ha => htail a (List.mem_of_mem_tail ha)) step hlater
        · intro hresult
          rcases netExec_download hresult with ⟨hdelivery, hok, hleft⟩
          rcases download_ok (whole_first hwhole) hok with hanew | ⟨hcontinues, hlast⟩
          · exact ⟨url, hurls ▸ List.mem_cons_self, hleft _ hanew⟩
          · rcases hfits url (by rw [hurls]; rfl)
              ⟨hlives, hdelivery, hcontinues.left, hcontinues.right⟩ with
              ⟨url', hurl', hexpected⟩
            exact ⟨url', hurl', hleft _ (hlast.trans (congrArg some hexpected))⟩
        · intro message c' hnone
          exact tryMirrors_promises (fun url h => hurls ▸ List.mem_cons_of_mem _ h)
            (fun _ => hnone) message

theorem promotesWhole_of_resumable {e : NetEvent} (h : Resumable content m e) :
    PromotesWhole content m e := by
  by_cases hlives : forall k, k ∈ e.dies -> 2 ≤ k
  · intro spec hspec step hstep
    rcases h spec hspec with ⟨hwhole, hfits⟩
    have hlog := mem_of_performed hstep
    rw [operation_of_spec hspec, trace_downloadModel] at hlog
    rcases List.mem_cons.mp hlog with rfl | hlater
    · exact unmixed_of_not_finalizes rfl
    · exact firstMirror_unmixed hwhole hlives hfits step hlater
  · simp only [not_forall, not_le] at hlives
    rcases hlives with ⟨k, hdies, hk⟩
    exact promotesWhole_of_dies hdies hk

/-!
Nothing less will do: a call that meets no difficulty promotes whatever comes out.
-/

theorem netExec_download_complete (content : Text -> Bytes) {url : Text}
    (hallowed : isAllowed url = true) (expectedSize : Nat) (temp name : Text)
    (m : Manager) :
    (netExec content (ManagerOp.withContext
        (Block.download url expectedSize temp name)) default { manager := m }).1 =
        Except.ok () ∧
      exists m', (netExec content (ManagerOp.withContext
          (Block.download url expectedSize temp name)) default { manager := m }).2 =
          { manager := m' } ∧
        m'.modelStorage.read temp =
          some (expected (content url) (m.modelStorage.read temp)) := by
  have hdownload : ModelDownloader.download content url (default : NetAnswer).replies
      (m.modelStorage.read temp) = _ :=
    download_complete hallowed _
  have hdelivery : (default : NetAnswer).delivery = Delivery.returned := rfl
  simp only [netExec, NetAnswer.settle, exec, hdownload, hdelivery]
  exact ⟨rfl, _, rfl, Directory.read_write_self _ _ _⟩

theorem promoteTemp_finalizes {temp : Text}
    (hgguf : isGguf m.modelStorage temp = true) :
    (ManagerOp.withContext (Block.finalize temp spec.fileName), (default : NetAnswer),
        ({ manager := m } : Coroutine)) ∈
      trace (netExec content) (promoteTemp spec temp) [] { manager := m } := by
  apply List.mem_cons_of_mem
  change _ ∈ trace (netExec content)
    (if !isGguf m.modelStorage temp then _ else perform _ _) _ { manager := m }
  rw [hgguf]
  exact List.mem_cons_self

/-- The call that meets no difficulty promotes what is expected of its first mirror. -/
theorem undisturbed_promotes {url : Text} (hurl : spec.urls.head? = some url)
    (hallowed : isAllowed url = true)
    (hgguf : (expected (content url)
      (m.modelStorage.read (tempFor spec.fileName))).take 4 = magic) :
    exists step, step ∈ performed content m
        { operation := Operation.downloadModel spec } ∧
      Promotes step.1 step.2.1.toAnswer step.2.2 = true ∧
      (netExec content step.1 step.2.1 step.2.2).2.manager.modelStorage.read
          (fileFor spec.fileName) =
        some (expected (content url)
          (m.modelStorage.read (tempFor spec.fileName))) := by
  rcases List.head?_eq_some_iff.mp hurl with ⟨rest, hurls⟩
  rcases netExec_download_complete content hallowed spec.sizeBytes
    (tempFor spec.fileName) spec.displayName
    (m.setTransfer (TransferState.Downloading spec.displayName none)) with
    ⟨hok, m', hm', htemp⟩
  have hvalid : isGguf m'.modelStorage (tempFor spec.fileName) = true := by
    rw [isGguf, htemp]
    exact decide_eq_true hgguf
  refine ⟨(ManagerOp.withContext
    (Block.finalize (tempFor spec.fileName) spec.fileName), default,
      { manager := m' }), ?_, ?_, ?_⟩
  · rw [performed, trace_downloadModel, hurls, tryMirrors_cons]
    apply List.mem_cons_of_mem
    apply List.mem_cons_of_mem
    change _ ∈ trace (netExec content) (afterDownload spec (tempFor spec.fileName)
      (netExec content (ManagerOp.withContext (Block.download url spec.sizeBytes
        (tempFor spec.fileName) spec.displayName)) default { manager := _ }).1 >>= _)
      [] (netExec content (ManagerOp.withContext (Block.download url spec.sizeBytes
        (tempFor spec.fileName) spec.displayName)) default { manager := _ }).2
    rw [hok, hm', trace_bind]
    exact List.mem_append_left _ (promoteTemp_finalizes hvalid)
  · rw [Promotes, Finalizes, hvalid]
    rfl
  · change (finalize (tempFor spec.fileName) spec.fileName false
      m'.modelStorage).2.read (fileFor spec.fileName) = _
    rw [(finalize_promotes hvalid).right.left, htemp]
    rfl

/-- Where there is no difficulty, a call promotes a mirror's content exactly if its
temp file fits, provided that a valid model comes out at all. -/
theorem promotesWhole_iff_fits {url : Text} (hurl : spec.urls.head? = some url)
    (hallowed : isAllowed url = true)
    (hgguf : (expected (content url)
      (m.modelStorage.read (tempFor spec.fileName))).take 4 = magic) :
    PromotesWhole content m { operation := Operation.downloadModel spec } <->
      Fits content spec m { operation := Operation.downloadModel spec } := by
  constructor
  · intro h url' hurl' _
    rcases undisturbed_promotes hurl hallowed hgguf with
      ⟨step, hstep, hpromotes, hread⟩
    rcases h spec rfl step hstep hpromotes with ⟨other, hother, hcontent⟩
    rw [hurl, Option.mem_some] at hurl'
    subst hurl'
    exact ⟨other, hother, Option.some.inj (hread.symm.trans hcontent)⟩
  · intro hfits
    apply promotesWhole_of_resumable
    intro spec' hspec
    cases hspec
    refine ⟨?_, hfits⟩
    intro a ha
    cases ha

end Runs

/--
A download promotes the complete content of one of its mirrors, in every run in
which a call that finds a temp file has one that fits: where the first mirror goes
on with it, the two make up the content of a mirror of the same model.  No body is
cut short without notice.
-/
theorem download_unmixed (content : Text -> Bytes) (m : Manager) (es : List NetEvent)
    (h : AllSteps (always (netStep content)) (Resumable content) m es) :
    AllSteps (always (netStep content)) (PromotesWhole content) m es :=
  h.mono fun _ _ _ => promotesWhole_of_resumable

def mirrored : ModelSpec where
  displayName := "M".toList
  fileName := "m.gguf".toList
  sizeBytes := 6
  urls := ["https://huggingface.co/a/m.gguf".toList,
    "https://huggingface.co/b/m.gguf".toList]

def builds (url : Text) : Bytes :=
  if mirrored.urls.head? = some url then magic ++ [1, 1] else magic ++ [2, 2, 2, 2]

def notFound : Reply :=
  Reply.refused { code := 404, unsuccessful := by decide, satisfiable := by decide }

def diesAtSecond (arrived : Nat) : NetEvent where
  operation := Operation.downloadModel mirrored
  answers := [default, { replies := [notFound] }, default,
    { replies := [Reply.served false (Ending.stopped arrived none)] }]
  dies := some 4

def diesAtFirst : NetEvent where
  operation := Operation.downloadModel mirrored
  answers := [default, { replies := [Reply.served false (Ending.interrupted 2),
    Reply.served false (Ending.stopped 2 none)] }]
  dies := some 2

def failedImport : NetEvent where
  operation := Operation.importModel (magic ++ [3, 3, 3]) "m.gguf".toList "M".toList
  answers := [default, { copyFails := some (5, none) }]

def undisturbed : NetEvent where
  operation := Operation.downloadModel mirrored

def cutShort : NetEvent where
  operation := Operation.downloadModel mirrored
  answers := [default, { replies := [Reply.served false (Ending.cutShort 5)] }]

theorem download_unmixed_diesAtFirst :
    AllSteps (always (netStep builds)) (PromotesWhole builds) (atStart none [] {} {})
      [diesAtFirst, undisturbed] :=
  download_unmixed builds (atStart none [] {} {}) [diesAtFirst, undisturbed]
    (by decide +kernel)

/-- The first mirror's bytes follow those of the second one, a part of the second
one's is taken for all of the first one's, the first mirror's bytes follow those of
an import, or a part of a body is taken for all of it. -/
theorem download_unmixed_fails :
    ¬ AllSteps (always (netStep builds)) (PromotesWhole builds)
      (atStart none [] {} {}) [diesAtSecond 5, undisturbed] ∧
    ¬ AllSteps (always (netStep builds)) (PromotesWhole builds)
      (atStart none [] {} {}) [diesAtSecond 7, undisturbed] ∧
    ¬ AllSteps (always (netStep builds)) (PromotesWhole builds)
      (atStart none [] {} {}) [failedImport, undisturbed] ∧
    ¬ AllSteps (always (netStep builds)) (PromotesWhole builds)
      (atStart none [] {} {}) [cutShort] := by
  refine ⟨?_, ?_, ?_, ?_⟩
  · decide +kernel
  · decide +kernel
  · decide +kernel
  · decide +kernel

end ModelManager
end DomainAI
