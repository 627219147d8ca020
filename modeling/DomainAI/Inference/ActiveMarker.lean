import DomainAI.Inference.ModelRuns

/-!
# The active marker

The list of installed models is a snapshot of the directory, flagged by the state
that is shown.  It is taken anew by hand, so it follows both of them as long as no
operation changes one and then suspends or ends without doing so.
-/

namespace DomainAI

/-!
# The models of a directory
-/

namespace ModelStorage

/-- The ending of files that are still being written. -/
def isPart (file : Text) : Bool :=
  ".part".toList.isSuffixOf file

def models (d : Directory) : List Text :=
  (listModels d).filter fun file => !isPart file

def SameModels (d d' : Directory) : Prop :=
  forall name, isPart name = false -> d'.present name = d.present name

theorem isPart_append (name : Text) : isPart (name ++ ".part".toList) = true :=
  List.isSuffixOf_iff_suffix.mpr (List.suffix_append name ".part".toList)

theorem mem_models {name : Text} {d : Directory} :
    name ∈ models d <-> d.present name = true ∧ isPart name = false := by
  rw [models, List.mem_filter, mem_listModels, Bool.not_eq_true']

namespace SameModels

variable {d d' : Directory}

theorem refl (d : Directory) : SameModels d d :=
  fun _ _ => rfl

theorem delete_part {temp : Text} (htemp : isPart temp = true) (d : Directory) :
    SameModels d (d.delete temp) := by
  intro name hname
  rw [Directory.present_delete, if_neg]
  intro hsame
  rw [hsame, htemp] at hname
  cases hname

theorem write_part {temp : Text} (htemp : isPart temp = true) (bytes : Bytes)
    (d : Directory) : SameModels d (d.write temp bytes) := by
  intro name hname
  rw [Directory.present_write, if_neg]
  intro hsame
  rw [hsame, htemp] at hname
  cases hname

theorem delete_of_notMem {file : Text} (h : file ∉ models d) :
    SameModels d (d.delete file) := by
  intro name hname
  rw [Directory.present_delete]
  split
  · rename_i hsame
    rw [<- hsame, mem_models, not_and] at h
    cases hpresent : d.present name with
    | false => rfl
    | true => exact absurd hname (h hpresent)
  · rfl

theorem mem_models_iff (h : SameModels d d') (name : Text) :
    name ∈ models d' <-> name ∈ models d := by
  rw [mem_models, mem_models]
  constructor
  · intro hname
    exact ⟨(h name hname.right).symm.trans hname.left, hname.right⟩
  · intro hname
    exact ⟨(h name hname.right).trans hname.left, hname.right⟩

end SameModels

theorem promote_present {temp name : Text} (htemp : isPart temp = true)
    (hne : temp ≠ fileFor name) (invalid notFinalized : Text) (refused : Bool)
    (d : Directory) {other : Text} (hother : isPart other = false) :
    (promote temp name invalid notFinalized refused d).2.present other =
      if isGguf d temp = true ∧ other = fileFor name then !refused
      else d.present other := by
  have hdeleted (d : Directory) := SameModels.delete_part htemp d other hother
  rcases promote_cases hne invalid notFinalized refused d with
    ⟨hvalid, hpromote⟩ | ⟨hvalid, hrefused, hpromote⟩ |
      ⟨hvalid, hdone, bytes, _, hpromote⟩
  · rw [hpromote, if_neg (by simp [hvalid])]
    exact hdeleted d
  · rw [hpromote]
    simp only [present_makeRoom, hvalid, hrefused, true_and, Bool.not_true]
  · rw [hpromote]
    simp only [Directory.present_write, hdeleted, present_makeRoom, hvalid, hdone, true_and,
      Bool.not_false]
    by_cases htarget : other = fileFor name
    · rw [if_pos htarget, if_pos htarget]
    · rw [if_neg htarget, if_neg htarget, if_neg htarget]

end ModelStorage

namespace ModelManager

open Library LLamaAndroid ModelStorage

/-!
# The list and its flags
-/

/-- An entry is flagged exactly when its file is the one loading or loaded. -/
def Marked (m : Manager) : Prop :=
  forall entry, entry ∈ m.installed ->
    (entry.isActive = true <-> m.activeFileName = some entry.fileName)

instance decidableMarked (m : Manager) : Decidable (Marked m) :=
  inferInstanceAs (Decidable (forall entry, entry ∈ m.installed ->
    (entry.isActive = true <-> m.activeFileName = some entry.fileName)))

def Listed (m : Manager) : Prop :=
  forall name, (exists entry, entry ∈ m.installed ∧ entry.fileName = name) <->
    name ∈ models m.modelStorage

structure Shown (m : Manager) : Prop where
  marked : Marked m
  listed : Listed m

theorem shown_refreshInstalled (m : Manager) : Shown m.refreshInstalled := by
  have hmem : forall entry, entry ∈ m.refreshInstalled.installed <->
      exists file, file ∈ models m.modelStorage ∧
        m.describe m.activeFileName file = entry := by
    intro entry
    rw [Manager.refreshInstalled, List.mem_insertionSort, List.mem_map]
    rfl
  constructor
  · intro entry hentry
    rcases (hmem entry).mp hentry with ⟨file, _, rfl⟩
    show decide (some file = m.activeFileName) = true <->
      m.activeFileName = some file
    rw [decide_eq_true_iff]
    exact eq_comm
  · intro name
    constructor
    · intro h
      rcases h with ⟨entry, hentry, rfl⟩
      rcases (hmem entry).mp hentry with ⟨file, hfile, rfl⟩
      exact hfile
    · intro hname
      exact ⟨_, (hmem _).mpr ⟨name, hname, rfl⟩, rfl⟩

section Shown

variable {m m' : Manager}

theorem Shown.of_same (h : Shown m) (hstate : m'.state = m.state)
    (hinstalled : m'.installed = m.installed)
    (hmodels : SameModels m.modelStorage m'.modelStorage) : Shown m' where
  marked entry hentry := by
    rw [hinstalled] at hentry
    rw [Manager.activeFileName, hstate]
    exact h.marked entry hentry
  listed name := by
    rw [hinstalled, hmodels.mem_models_iff]
    exact h.listed name

theorem block_state (block : Block) (a : Answer) (m : Manager) :
    (block.run a m).2.state = m.state := by
  cases block <;> rfl

theorem block_installed (block : Block) (a : Answer) (m : Manager) :
    (block.run a m).2.installed = m.installed := by
  cases block <;> rfl

end Shown

/-!
# What goes on to refresh
-/

def Operation.isDeletion : Operation -> Bool
  | Operation.deleteInstalled _ => true
  | _ => false

/-- A promotion of a valid file is not refused once it has removed a model, and its
caller is not cancelled once it has added one. -/
def PromotionNoticed (name : Text) (a : Answer) (c : Coroutine) : Prop :=
  ¬ NotRun a c ->
    (a.renameRefused = true -> fileFor name ∉ models c.manager.modelStorage) ∧
    (a.renameRefused = false -> RunInVain a c -> isPart (fileFor name) = false ->
      fileFor name ∈ models c.manager.modelStorage)

/-- A deletion unloads no model that the list flags, and a change of the models is not
missed by its caller. -/
def Noticed (operation : Operation) : ManagerOp -> Answer -> Coroutine -> Prop
  | ManagerOp.withContext Block.unload, a, c =>
      operation.isDeletion = true -> ¬ NotRun a c -> ¬ RunInVain a c ->
        forall entry, entry ∈ c.manager.installed -> entry.isActive = false
  | ManagerOp.withContext (Block.delete file), a, c =>
      RunInVain a c -> file ∉ models c.manager.modelStorage
  | ManagerOp.withContext (Block.finalize temp name), a, c =>
      isGguf c.manager.modelStorage temp = true -> PromotionNoticed name a c
  | ManagerOp.withContext (Block.importFrom source name), a, c =>
      a.copyFails = none -> source.take 4 = magic -> PromotionNoticed name a c
  | _, _, _ => True

instance decidablePromotionNoticed (name : Text) (a : Answer) (c : Coroutine) :
    Decidable (PromotionNoticed name a c) :=
  inferInstanceAs (Decidable (¬ NotRun a c ->
    (a.renameRefused = true -> fileFor name ∉ models c.manager.modelStorage) ∧
    (a.renameRefused = false -> RunInVain a c -> isPart (fileFor name) = false ->
      fileFor name ∈ models c.manager.modelStorage)))

instance decidableNoticed (operation : Operation) :
    (o : ManagerOp) -> (a : Answer) -> (c : Coroutine) ->
      Decidable (Noticed operation o a c)
  | ManagerOp.withContext Block.unload, a, c =>
      inferInstanceAs (Decidable (operation.isDeletion = true -> ¬ NotRun a c ->
        ¬ RunInVain a c -> forall entry, entry ∈ c.manager.installed ->
          entry.isActive = false))
  | ManagerOp.withContext (Block.delete file), a, c =>
      inferInstanceAs (Decidable (RunInVain a c ->
        file ∉ models c.manager.modelStorage))
  | ManagerOp.withContext (Block.finalize temp name), a, c =>
      inferInstanceAs (Decidable (isGguf c.manager.modelStorage temp = true ->
        PromotionNoticed name a c))
  | ManagerOp.withContext (Block.importFrom source name), a, c =>
      inferInstanceAs (Decidable (a.copyFails = none -> source.take 4 = magic ->
        PromotionNoticed name a c))
  | ManagerOp.withContext (Block.load _), _, _ => isTrue trivial
  | ManagerOp.withContext (Block.download _ _ _ _), _, _ => isTrue trivial
  | ManagerOp.nonCancellable _, _, _ => isTrue trivial
  | ManagerOp.read, _, _ => isTrue trivial
  | ManagerOp.assign _, _, _ => isTrue trivial

/-- Blocks that are run elsewhere find the flags as the state has them. -/
def Marking : ManagerOp -> Answer -> Coroutine -> Prop
  | ManagerOp.withContext _, _, c => Marked c.manager
  | ManagerOp.nonCancellable _, _, c => Marked c.manager
  | _, _, _ => True

instance decidableMarking :
    (o : ManagerOp) -> (a : Answer) -> (c : Coroutine) -> Decidable (Marking o a c)
  | ManagerOp.withContext _, _, c => decidableMarked c.manager
  | ManagerOp.nonCancellable _, _, c => decidableMarked c.manager
  | ManagerOp.read, _, _ => isTrue trivial
  | ManagerOp.assign _, _, _ => isTrue trivial

def Temporary : Block -> Prop
  | Block.finalize temp name => isPart temp = true ∧ temp ≠ fileFor name
  | Block.download _ _ temp _ => isPart temp = true
  | _ => True

theorem promote_sameModels {temp name : Text} (htemp : isPart temp = true)
    (hne : temp ≠ fileFor name) {invalid notFinalized : Text} {a : Answer}
    {c : Coroutine} {d : Directory}
    (hd : SameModels c.manager.modelStorage d) (hrun : ¬ NotRun a c)
    (hnoticed : isGguf d temp = true -> PromotionNoticed name a c)
    (hthrows : RunInVain a c ∨ exists message,
      (promote temp name invalid notFinalized a.renameRefused d).1 =
        Except.error message) :
    SameModels c.manager.modelStorage
      (promote temp name invalid notFinalized a.renameRefused d).2 := by
  intro other hother
  rw [promote_present htemp hne _ _ _ _ hother]
  split
  · rename_i htarget
    rcases htarget with ⟨hvalid, rfl⟩
    rcases hnoticed hvalid hrun with ⟨hremoved, hadded⟩
    cases hrefused : a.renameRefused with
    | true =>
        have hgone := hremoved hrefused
        rw [mem_models, not_and'] at hgone
        exact (Bool.eq_false_of_not_eq_true (hgone hother)).symm
    | false =>
        have hvain : RunInVain a c := by
          rcases hthrows with hvain | ⟨message, herror⟩
          · exact hvain
          · rcases promote_cases hne invalid notFinalized a.renameRefused d with
              ⟨hinvalid, _⟩ | ⟨_, hrefused', _⟩ | ⟨_, _, bytes, _, hpromote⟩
            · rw [hvalid] at hinvalid
              cases hinvalid
            · rw [hrefused] at hrefused'
              cases hrefused'
            · rw [hpromote] at herror
              cases herror
        exact (mem_models.mp (hadded hrefused hvain hother)).left.symm
  · exact hd other hother

theorem download_sameModels (url : Text) (expectedSize : Nat) {temp : Text}
    (htemp : isPart temp = true) (displayName : Text) (a : Answer) (m : Manager) :
    SameModels m.modelStorage
      ((Block.download url expectedSize temp displayName).run a m).2.modelStorage := by
  simp only [Block.run]
  cases a.downloaded with
  | none => exact SameModels.refl _
  | some bytes => exact SameModels.write_part htemp bytes _

theorem block_sameModels {operation : Operation} {block : Block} {a : Answer}
    {c : Coroutine} (htemp : Temporary block) (hrun : ¬ NotRun a c)
    (hnoticed : Noticed operation (ManagerOp.withContext block) a c)
    (hthrows : RunInVain a c ∨
      exists e, (block.run a c.manager).1 = Except.error e) :
    SameModels c.manager.modelStorage (block.run a c.manager).2.modelStorage := by
  have hmessage {alpha : Type} {f : Option Text -> Failure}
      {result : Except (Option Text) alpha}
      (h : RunInVain a c ∨ exists e, result.mapError f = Except.error e) :
      RunInVain a c ∨ exists message, result = Except.error message := by
    refine h.imp_right fun herror => ?_
    rcases result with message | _
    · exact ⟨message, rfl⟩
    · rcases herror with ⟨e, he⟩
      cases he
  cases block with
  | unload => exact SameModels.refl _
  | load request => exact SameModels.refl _
  | importFrom source name =>
      have hpart := isPart_append (fileFor name)
      have hcopied := SameModels.write_part hpart source c.manager.modelStorage
      simp only [Block.run, ModelStorage.importFrom] at hthrows ⊢
      cases hcopy : a.copyFails with
      | some failure => exact SameModels.write_part hpart _ _
      | none =>
          rw [hcopy] at hthrows
          refine promote_sameModels hpart (by simp) hcopied hrun ?_ (hmessage hthrows)
          intro hvalid
          refine hnoticed hcopy ?_
          simpa [isGguf] using hvalid
  | finalize temp name =>
      exact promote_sameModels htemp.left htemp.right (SameModels.refl _) hrun hnoticed
        (hmessage hthrows)
  | delete file =>
      rcases hthrows with hvain | ⟨e, he⟩
      · exact SameModels.delete_of_notMem (hnoticed hvain)
      · cases he
  | download url expectedSize temp displayName =>
      exact download_sameModels url expectedSize htemp displayName a c.manager

/-!
# Programs that suspend with the right flags
-/

/-- Every suspension of the program finds the flags right, if all are noticed. -/
abbrev Marks (operation : Operation) {alpha : Type} (p : ManagerProgram alpha)
    (Q : alpha -> Coroutine -> Prop) (c : Coroutine) : Prop :=
  Program.Guarantees exec (Noticed operation) Marking p Q c

section Marks

variable {operation : Operation} {alpha : Type} {Q : alpha -> Coroutine -> Prop}
  {c : Coroutine}

theorem marks_bind {beta : Type} {p : ManagerProgram beta}
    {next : beta -> ManagerProgram alpha} {P : beta -> Coroutine -> Prop}
    (hp : Marks operation p P c)
    (h : forall b c', P b c' -> Marks operation (next b) Q c') :
    Marks operation (p >>= next) Q c :=
  Program.guarantees_bind (Program.guarantees_mono hp h)

theorem marks_read {next : Manager -> ManagerProgram alpha}
    (h : Marks operation (next c.manager) Q c) :
    Marks operation (read >>= next) Q c :=
  fun _ _ => ⟨trivial, h⟩

theorem marks_assign {f : Manager -> Manager} {next : Unit -> ManagerProgram alpha}
    (h : Marks operation (next ()) Q { c with manager := f c.manager }) :
    Marks operation (assign f >>= next) Q c :=
  fun _ _ => ⟨trivial, h⟩

theorem marks_nonCancellable {block : Block} {next : Unit -> ManagerProgram alpha}
    (hmarked : Marked c.manager)
    (h : forall a : Answer,
      Marks operation (next ()) Q { c with manager := (block.run a c.manager).2 }) :
    Marks operation (nonCancellable block >>= next) Q c :=
  fun a _ => ⟨hmarked, h a⟩

theorem marks_withContext {block : Block}
    {next : Except Failure block.Result -> ManagerProgram alpha}
    (hshown : Shown c.manager) (htemp : Temporary block)
    (hthrows : forall e c', Shown c'.manager ->
      Marks operation (next (Except.error e)) Q c')
    (hreturns : forall a c' result, ¬ NotRun a c -> ¬ RunInVain a c ->
      Noticed operation (ManagerOp.withContext block) a c ->
      c'.manager = (block.run a c.manager).2 ->
      Marks operation (next (Except.ok result)) Q c') :
    Marks operation (withContext block >>= next) Q c := by
  intro a hnoticed
  refine ⟨hshown.marked, ?_⟩
  have hsame (hthrown : RunInVain a c ∨
      exists e, (block.run a c.manager).1 = Except.error e) (hrun : ¬ NotRun a c)
      {m : Manager} (hm : m = (block.run a c.manager).2) : Shown m := by
    rw [hm]
    exact hshown.of_same (block_state block a c.manager)
      (block_installed block a c.manager)
      (block_sameModels htemp hrun hnoticed hthrown)
  rcases exec_withContext block a c with
    ⟨_, hresult, hm⟩ | ⟨hvain, hresult, hm⟩ | ⟨hrun, hvain, hresult, hm⟩
  · rw [hresult]
    apply hthrows
    rw [hm]
    exact hshown
  · rw [hresult]
    exact hthrows _ _ (hsame (Or.inl hvain) hvain.ran hm)
  · rw [hresult]
    cases hblock : (block.run a c.manager).1 with
    | error e => exact hthrows _ _ (hsame (Or.inr ⟨e, hblock⟩) hrun hm)
    | ok result => exact hreturns a _ result hrun hvain hnoticed hm

end Marks

/-!
# Loading
-/

def Keeps (I : Manager -> Prop) : ManagerOp -> Prop
  | ManagerOp.read => True
  | ManagerOp.assign f => forall m, I m -> I (f m)
  | ManagerOp.withContext block => forall a m, I m -> I (block.run a m).2
  | ManagerOp.nonCancellable block => forall a m, I m -> I (block.run a m).2

theorem exec_keeps {I : Manager -> Prop} {o : ManagerOp} (ho : Keeps I o) (a : Answer)
    {c : Coroutine} (hc : I c.manager) : I (exec o a c).2.manager := by
  cases o with
  | read => exact hc
  | assign f => exact ho c.manager hc
  | withContext block =>
      rcases exec_withContext block a c with ⟨_, _, hm⟩ | ⟨_, _, hm⟩ | ⟨_, _, _, hm⟩
      · rw [hm]
        exact hc
      · rw [hm]
        exact ho a c.manager hc
      · rw [hm]
        exact ho a c.manager hc
  | nonCancellable block => exact ho a c.manager hc

abbrev KeepsOnly (I : Manager -> Prop) {alpha : Type} (p : ManagerProgram alpha) : Prop :=
  Program.Obeys (Keeps I) (fun _ _ => True) (fun _ => True) p

theorem marks_keepsOnly {operation : Operation} {I : Manager -> Prop}
    (hmarked : forall m, I m -> Marked m) {alpha : Type} {p : ManagerProgram alpha}
    (hp : KeepsOnly I p) {c : Coroutine} (hc : I c.manager) :
    Marks operation p (fun _ c' => I c'.manager) c := by
  refine Program.guarantees_mono (Program.guarantees_of_obeys
    (I := fun c => I c.manager) ?_ hp hc) fun _ _ h => h.right
  intro o a c' hI ho _
  refine ⟨?_, trivial, exec_keeps ho a hI⟩
  cases o with
  | withContext block => exact hmarked _ hI
  | nonCancellable block => exact hmarked _ hI
  | _ => trivial

structure ShownLoading (fileName : Text) (m : Manager) : Prop where
  shown : Shown m
  active : m.activeFileName = some fileName

theorem ShownLoading.of_same {fileName : Text} {m m' : Manager}
    (h : ShownLoading fileName m) (hactive : m'.activeFileName = some fileName)
    (hinstalled : m'.installed = m.installed)
    (hstorage : m'.modelStorage = m.modelStorage) : ShownLoading fileName m' where
  shown := by
    constructor
    · intro entry hentry
      rw [hinstalled] at hentry
      rw [hactive, <- h.active]
      exact h.shown.marked entry hentry
    · intro name
      rw [hinstalled, hstorage]
      exact h.shown.listed name
  active := hactive

theorem keeps_of_rungStep {displayName fileName : Text} {o : ManagerOp}
    (ho : RungStep displayName fileName o) : Keeps (ShownLoading fileName) o := by
  cases ho with
  | read => trivial
  | unload => exact fun _ _ hm => hm.of_same hm.active rfl rfl
  | load request => exact fun _ _ hm => hm.of_same hm.active rfl rfl
  | setBackend name => exact fun _ hm => hm.of_same hm.active rfl rfl
  | setGpuGuard f => exact fun _ hm => hm.of_same hm.active rfl rfl
  | ready detail => exact fun _ hm => hm.of_same rfl rfl rfl

section Operations

variable {operation : Operation} {c : Coroutine}

theorem loadIntoContext_marks (path displayName fileName : Text) :
    Marks operation (loadIntoContext path displayName fileName) (fun _ _ => True) c := by
  apply marks_assign
  apply marks_assign
  apply marks_read
  apply marks_assign
  have hloading (m : Manager) : ShownLoading fileName
      ((((m.setState (State.Loading displayName (some fileName))).refreshInstalled).setGpuGuard
        m.gpuGuard.layersToOffload.2)) :=
    { shown := (shown_refreshInstalled _).of_same rfl rfl (SameModels.refl _)
      active := rfl }
  apply marks_bind (marks_keepsOnly (fun m hm => hm.shown.marked)
    (Program.obeys_mono (fun _ => keeps_of_rungStep)
      (climb_steps path displayName fileName _ none)) (hloading c.manager))
  intro result c' _
  rcases result with _ | e
  · trivial
  · exact fun _ _ => ⟨trivial, trivial⟩

abbrev EndsShown (operation : Operation) {alpha : Type} (p : ManagerProgram alpha)
    (c : Coroutine) : Prop :=
  Marks operation p (fun _ c' => Shown c'.manager) c

theorem refreshInstalled_endsShown : EndsShown operation refreshInstalled c :=
  fun _ _ => ⟨trivial, shown_refreshInstalled c.manager⟩

theorem saveIfReady_marks (descriptor : ModelDescriptor) :
    Marks operation (saveIfReady descriptor) (fun _ _ => True) c := by
  apply marks_read
  split
  · exact fun _ _ => ⟨trivial, trivial⟩
  · trivial

theorem activate_endsShown (path displayName fileName : Text) (source : ModelSource)
    (sizeBytes : Nat) :
    EndsShown operation (activate path displayName fileName source sizeBytes) c := by
  refine marks_bind (loadIntoContext_marks path displayName fileName) fun _ _ _ => ?_
  refine marks_bind (saveIfReady_marks _) fun _ _ _ => ?_
  exact refreshInstalled_endsShown

theorem loadActiveModelIfPresent_endsShown :
    EndsShown operation loadActiveModelIfPresent c := by
  apply marks_read
  split
  · exact refreshInstalled_endsShown
  · apply Program.guarantees_ite
    · intro _
      refine marks_bind (loadIntoContext_marks _ _ _) fun _ _ _ => ?_
      exact refreshInstalled_endsShown
    · intro _
      apply marks_assign
      exact refreshInstalled_endsShown

theorem selectInstalled_endsShown (hshown : Shown c.manager) (fileName : Text) :
    EndsShown operation (selectInstalled fileName) c := by
  apply marks_read
  apply Program.guarantees_ite
  · exact fun _ => refreshInstalled_endsShown
  · intro _
    apply Program.guarantees_ite
    · exact fun _ => hshown
    · intro _
      refine marks_bind (loadIntoContext_marks _ _ _) fun _ _ _ => ?_
      apply marks_read
      refine marks_bind (saveIfReady_marks _) fun _ _ _ => ?_
      exact refreshInstalled_endsShown

theorem deleteFile_endsShown (hshown : Shown c.manager) (fileName : Text) :
    EndsShown operation (deleteFile fileName) c := by
  apply marks_withContext hshown
  · trivial
  · exact fun e c' hshown' => hshown'
  · intro a c' _ _ _ _ _
    exact marks_bind refreshInstalled_endsShown fun _ _ hshown' => hshown'

theorem shown_forgetActive {m : Manager} (hshown : Shown m)
    (hunflagged : forall entry, entry ∈ m.installed -> entry.isActive = false) :
    Shown (((m.setBackend none).setModelStore none).setState State.NotLoaded) where
  marked entry hentry := by
    rw [hunflagged entry hentry]
    constructor
    · intro h
      cases h
    · intro h
      cases h
  listed := hshown.listed

theorem forgetActive_marks {alpha : Type} {next : Unit -> ManagerProgram alpha}
    {Q : alpha -> Coroutine -> Prop}
    (h : Marks operation (next ()) Q
      { c with manager :=
        ((c.manager.setBackend none).setModelStore none).setState State.NotLoaded }) :
    Marks operation (forgetActive >>= next) Q c := by
  apply marks_assign
  apply marks_assign
  exact marks_assign h

theorem deleteInstalled_endsShown (hshown : Shown c.manager) (fileName : Text) :
    EndsShown (Operation.deleteInstalled fileName) (deleteInstalled fileName) c := by
  apply marks_read
  apply Program.guarantees_ite
  · intro _
    apply marks_withContext hshown
    · trivial
    · exact fun e c' hshown' => hshown'
    · intro a c' _ hrun hvain hnoticed hm
      apply forgetActive_marks
      apply deleteFile_endsShown
      rw [hm]
      exact shown_forgetActive (hshown.of_same rfl rfl (SameModels.refl _))
        (hnoticed rfl hrun hvain)
  · exact fun _ => deleteFile_endsShown hshown fileName

theorem unload_endsShown (hshown : Shown c.manager) :
    EndsShown operation unload c := by
  apply marks_withContext hshown
  · trivial
  · exact fun e c' hshown' => hshown'
  · intro a c' _ _ _ _ _
    apply forgetActive_marks
    exact marks_bind refreshInstalled_endsShown fun _ _ hshown' => hshown'

theorem importModel_endsShown (hshown : Shown c.manager) (input : Bytes)
    (fileName displayName : Text) :
    EndsShown operation (importModel input fileName displayName) c := by
  apply marks_assign
  apply marks_withContext
  · exact hshown.of_same rfl rfl (SameModels.refl _)
  · trivial
  · intro e c' hshown'
    exact fun _ _ => ⟨trivial, hshown'.of_same rfl rfl (SameModels.refl _)⟩
  · intro a c' file _ _ _ _
    apply marks_assign
    apply marks_read
    exact activate_endsShown _ _ _ _ _

theorem mirrorFailed_endsShown (hshown : Shown c.manager) {temp : Text}
    (htemp : isPart temp = true) (e : Failure) :
    EndsShown operation (mirrorFailed temp e) c := by
  have hdeleted (m : Manager) := SameModels.delete_part htemp m.modelStorage
  apply Program.guarantees_ite
  · intro _
    apply marks_nonCancellable hshown.marked
    intro a
    exact fun _ _ => ⟨trivial, hshown.of_same rfl rfl (hdeleted c.manager)⟩
  · intro _
    apply marks_withContext hshown
    · trivial
    · exact fun e c' hshown' => hshown'
    · intro a c' _ _ _ _ hm
      show Shown c'.manager
      rw [hm]
      exact hshown.of_same rfl rfl (hdeleted c.manager)

theorem tryMirror_endsShown (hshown : Shown c.manager) (spec : ModelSpec)
    {temp : Text} (htemp : isPart temp = true) (hne : temp ≠ fileFor spec.fileName)
    (url : Text) : EndsShown operation (tryMirror spec temp url) c := by
  apply marks_withContext hshown
  · exact htemp
  · exact fun e c' hshown' => mirrorFailed_endsShown hshown' htemp e
  · intro a c' _ _ _ _ hm
    have hshown' : Shown c'.manager := by
      rw [hm]
      exact hshown.of_same (block_state _ _ _) (block_installed _ _ _)
        (download_sameModels _ _ htemp _ a c.manager)
    apply marks_read
    apply Program.guarantees_ite
    · exact fun _ => mirrorFailed_endsShown hshown' htemp _
    · intro _
      apply marks_withContext hshown'
      · exact ⟨htemp, hne⟩
      · exact fun e c'' hshown'' => mirrorFailed_endsShown hshown'' htemp e
      · intro a c'' file _ _ _ _
        apply marks_assign
        apply marks_read
        exact marks_bind (activate_endsShown _ _ _ _ _) fun _ _ hshown'' => hshown''

theorem tryMirrors_endsShown (spec : ModelSpec) {temp : Text}
    (htemp : isPart temp = true) (hne : temp ≠ fileFor spec.fileName)
    (urls : List Text) (lastError : Option Text) (hshown : Shown c.manager) :
    EndsShown operation (tryMirrors spec temp urls lastError) c := by
  induction urls generalizing lastError c with
  | nil => exact fun _ _ => ⟨trivial, hshown.of_same rfl rfl (SameModels.refl _)⟩
  | cons url rest ih =>
      refine marks_bind (tryMirror_endsShown hshown spec htemp hne url) ?_
      intro result c' hshown'
      rcases result with _ | e | message
      · exact hshown'
      · exact hshown'
      · exact ih message hshown'

theorem downloadModel_endsShown (hshown : Shown c.manager) (spec : ModelSpec) :
    EndsShown operation (downloadModel spec) c := by
  apply marks_assign
  apply tryMirrors_endsShown spec (isPart_append _) (tempFor_ne_fileFor _)
  exact hshown.of_same rfl rfl (SameModels.refl _)

theorem clearTransfer_endsShown (hshown : Shown c.manager) :
    EndsShown operation clearTransfer c := by
  apply marks_read
  split
  · exact fun _ _ => ⟨trivial, hshown.of_same rfl rfl (SameModels.refl _)⟩
  · exact hshown

theorem program_endsShown (hshown : Shown c.manager) (operation : Operation) :
    EndsShown operation operation.program c := by
  have hassign {f : Manager -> Manager} (hsame : Shown (f c.manager)) :
      EndsShown operation (assign f) c :=
    fun _ _ => ⟨trivial, hsame⟩
  cases operation with
  | loadActiveModelIfPresent => exact loadActiveModelIfPresent_endsShown
  | selectInstalled fileName => exact selectInstalled_endsShown hshown fileName
  | deleteInstalled fileName =>
      exact marks_bind (deleteInstalled_endsShown hshown fileName) fun _ _ h => h
  | importModel input fileName displayName =>
      exact importModel_endsShown hshown input fileName displayName
  | downloadModel spec =>
      exact marks_bind (downloadModel_endsShown hshown spec) fun _ _ h => h
  | unload => exact marks_bind (unload_endsShown hshown) fun _ _ h => h
  | clearTransfer => exact clearTransfer_endsShown hshown
  | _ => exact hassign (hshown.of_same rfl rfl (SameModels.refl _))

end Operations

/-!
# Runs
-/

def NoticedThroughout (m : Manager) (e : Event) : Prop :=
  Program.Along exec (Noticed e.operation) e.operation.program e.answers { manager := m }

def MarkedThroughout (m : Manager) (e : Event) : Prop :=
  Program.Along exec Marking e.operation.program e.answers { manager := m }

instance decidableNoticedThroughout (m : Manager) (e : Event) :
    Decidable (NoticedThroughout m e) :=
  Program.decidableAlong _ _ _

instance decidableMarkedThroughout (m : Manager) (e : Event) :
    Decidable (MarkedThroughout m e) :=
  Program.decidableAlong _ _ _

theorem step_shown {m : Manager} {e : Event} (hm : Shown m)
    (he : NoticedThroughout m e) : MarkedThroughout m e ∧ Shown (step m e) :=
  Program.guarantees_run (program_endsShown (c := { manager := m }) hm e.operation) he

def afterInit (modelStore : Option ModelDescriptor) (modelStorage : Directory)
    (gpuGuard : GpuGuard) (settings : Settings) : Manager :=
  (atStart modelStore modelStorage gpuGuard settings).refreshInstalled

/-- At every suspension point the flags agree with the state, and whenever no operation
is running the list is that of the directory, as long as every change is noticed. -/
theorem active_marker {modelStore : Option ModelDescriptor} {modelStorage : Directory}
    {gpuGuard : GpuGuard} {settings : Settings} {es : List Event}
    (hnoticed : AllSteps (always step) NoticedThroughout
      (afterInit modelStore modelStorage gpuGuard settings) es) :
    AllSteps (always step) (fun m e => Shown m ∧ MarkedThroughout m e)
        (afterInit modelStore modelStorage gpuGuard settings) es ∧
      forall m, runEvents (always step)
        (afterInit modelStore modelStorage gpuGuard settings) es = some m ->
          Shown m := by
  have hstart : Shown (afterInit modelStore modelStorage gpuGuard settings) :=
    shown_refreshInstalled _
  have hstep : forall m e m', Shown m -> NoticedThroughout m e ->
      always step m e = some m' -> Shown m' := by
    intro m e m' hm he hstep
    cases hstep
    exact (step_shown hm he).right
  constructor
  · exact allSteps_of_invariant hstep (fun m e hm he => ⟨hm, (step_shown hm he).left⟩)
      hstart hnoticed
  · intro m hrun
    exact runEvents_invariant hstep hstart hnoticed hrun

def deleteGguf : Event where
  operation := Operation.deleteInstalled "m.gguf".toList
  answers := []

def unloadThenDelete : List Event :=
  [importGguf, { operation := Operation.unload, answers := [] }, deleteGguf]

theorem active_marker_unloadThenDelete :
    exists m, runEvents (always step) (afterInit none [] {} {}) unloadThenDelete =
      some m ∧ Shown m := by
  refine ⟨_, rfl, ?_⟩
  refine (@active_marker none [] {} {} unloadThenDelete ?_).right _ rfl
  refine AllSteps.cons (by decide +kernel) rfl ?_
  refine AllSteps.cons (by decide +kernel) rfl ?_
  exact AllSteps.cons (by decide +kernel) rfl trivial

def importInVain : Event where
  operation := importGguf.operation
  answers := [{}, { delivery := Delivery.cancelledAfter }]

/-- The file of the model in use is being deleted while it is still flagged, a model is
there that is not listed, and one is listed that is not there. -/
theorem active_marker_fails :
    (exists m, runEvents (always step) (afterInit none [] {} {}) [importGguf] = some m ∧
      ¬ MarkedThroughout m deleteGguf) ∧
    (exists m, runEvents (always step) (afterInit none [] {} {}) [importInVain] = some m ∧
      ¬ Listed m) ∧
    (exists m, runEvents (always step) (afterInit none [] {} {})
        [importGguf, refusedImport] = some m ∧ ¬ Listed m) := by
  refine ⟨⟨_, rfl, by decide +kernel⟩, ⟨_, rfl, ?_⟩, ⟨_, rfl, ?_⟩⟩
  · intro h
    rcases (h "m.gguf".toList).mpr (by decide +kernel) with ⟨entry, hentry, _⟩
    exact absurd hentry (List.not_mem_nil)
  · intro h
    refine absurd ((h "m.gguf".toList).mp ?_) (by decide +kernel)
    exact ⟨_, List.mem_singleton.mpr rfl, rfl⟩

end ModelManager
end DomainAI
