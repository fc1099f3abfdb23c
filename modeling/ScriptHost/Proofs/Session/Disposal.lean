/-
Disposal is terminal.

From the moment a context is disposed of, whatever else the session does, the context stays invalid
and its queue closed (`Disposed.moves`).  What was waiting can be drained, and nothing is added to
it: every entry point that would append fails with the same fault.  No markup is read, no listener
is called, and a dispatch that ends leaves nobody registered.  `Terminal` says all of this of one
later state, and `Disposing.terminal` that it holds in every one.

Design notes: five entry points look at two different flags, the validity of the context and the
closing of its queue.  That they agree is an invariant of all moves (`Sound`), so what is proved of
either flag is proved of both.
-/
import ScriptHost.Proofs.Session.Orderly
import ScriptHost.Proofs.Listener.Ending

namespace ScriptHost.Session

open Script (Value)

/-- A context is disposed of, directly or by way of a registry. -/
inductive Disposing (i : Nat) : Session → Session → Prop
  | directly (s : Session) : Disposing i s (disposeContext i s).2
  | struck (registry : Nat) (id : ContextId) (s : Session)
      (h : ((s.registries[registry]?.getD default).registry.remove id).1 = some i) :
      Disposing i s (strikeContext registry id s).2

/-! ### Scripts that append -/

namespace Realm

/-- The arguments of a call about an attribute are brought into shape: its target, its name and,
while the name is held, its value. -/
def Fits (r : Realm) (operation : String) (args : List Value) (value : ScriptM (Option String))
    (s : Session) : Prop :=
  ∃ target name s₁ v s₂, (targetId args operation).run s = (.ok target, s) ∧
    (r.requiredText args[1]? operation).run s = (.ok name, s₁) ∧
    value.run (holding (fun h => h.take r.context.table name) s₁).2 = (.ok v, s₂)

/-- The arguments of `setStyle` are brought into shape, and the edit needs a command. -/
def StyleNeeds (r : Realm) (args : List Value) (s : Session) : Prop :=
  ∃ target name s₁ value s₂, (targetId args "setStyle").run s = (.ok target, s) ∧
    (r.requiredText args[1]? "setStyle").run s = (.ok name, s₁) ∧
    (r.text? args[2]?).run s₁ = (.ok value, s₂) ∧
    let styled := styleOf r.runtime target s₂
    let d := declaration r.context styled.1 target
    if value.getD "" = "" then (desk r.perform r.context).RemoveNeeds d name styled.2
    else (desk r.perform r.context).SetNeeds d name (value.getD "") styled.2

end Realm

/-! ### What is refused -/

/-- In a state `t` in which the context of a dispatch is invalid: no dispatch reaches a listener, and
none that ends on an invalid context leaves any listener registered. -/
structure Silenced {L : Type} (id : ContextId) (w : Surroundings Session L) (t : Session) :
    Prop where
  invalid : w.isValid t = false
  refused (module : String) (event extra : Option String) :
    w.dispatch module event extra t = (.error (.contextDisposed id), w.unlink t)
  unlinked : (w.roster (w.unlink t)).handles = []
  /-- What listeners would do on an invalid context makes no difference to any dispatch. -/
  uncalled {call : L → ModuleEvent → Session → Option String × Session}
    (hcall : ∀ l e u, w.isValid u = true → call l e u = w.call l e u)
    (module : String) (event extra : Option String) (u : Session) :
    (w.calling call).dispatch module event extra u = w.dispatch module event extra u
  /-- Also a dispatch that began earlier ends with nobody registered. -/
  cleared (module : String) (event extra : Option String) {u : Session}
    (hend : w.isValid (w.dispatch module event extra u).2 = false) :
    (w.roster (w.dispatch module event extra u).2).handles = []

/-- What is true in a state `t` of a context `c` that was disposed of in `s`. -/
structure Terminal (i : Nat) (c : Context) (s t : Session) : Prop where
  disposed : Disposed i c t
  again : disposeContext i t = ((), t)
  /-- There is a history of the queue since then. -/
  history : ∃ h, (quietOutlet c.queue).Run s h t
  /-- What was drained since then, followed by what waits, is what waited then. -/
  conserved (h : List Outlet.Event) (run : (quietOutlet c.queue).Run s h t) :
    Outlet.drained h ++ ((quietOutlet c.queue).queue t).pending.toList =
      ((quietOutlet c.queue).queue s).pending.toList
  append (p : Performer) (command : Command) :
    appendCommand p c.queue command t = (.error (.contextDisposed c.id),
      (quietOutlet c.queue).log (.commandRefused c.id command.kind command.target) t)
  set (p : Performer) {c₀ : Context} (hc₀ : { c₀ with valid := false } = c)
    (d : Style.Declaration) {name value : String} (h : (desk p c₀).SetNeeds d name value t) :
    (setProperty p c₀ d name value t).1 = .error (.contextDisposed c.id) ∧
      (setProperty p c₀ d name value t).2.queues = t.queues
  remove (p : Performer) {c₀ : Context} (hc₀ : { c₀ with valid := false } = c)
    (d : Style.Declaration) {name : String} (h : (desk p c₀).RemoveNeeds d name t) :
    (removeProperty p c₀ d name t).1 = .error (.contextDisposed c.id) ∧
      (removeProperty p c₀ d name t).2.queues = t.queues
  setStyle {r : Realm} (hr : r.Lawful t) (hc : { r.context with valid := false } = c)
    {args : List Value} (h : r.StyleNeeds args t) :
    ((r.setStyle args).run t).1 = .error (Realm.thrown (.contextDisposed c.id)) ∧
      Moves t ((r.setStyle args).run t).2
  setAttribute {r : Realm} (hr : r.Lawful t) (hc : { r.context with valid := false } = c)
    {args : List Value}
    (h : r.Fits "setAttribute" args (do return some ((← r.text? args[2]?).getD "")) t) :
    ((r.setAttribute args).run t).1 = .error (Realm.thrown (.contextDisposed c.id)) ∧
      Moves t ((r.setAttribute args).run t).2
  removeAttribute {r : Realm} (hr : r.Lawful t) (hc : { r.context with valid := false } = c)
    {args : List Value} (h : r.Fits "removeAttribute" args (return none) t) :
    ((r.removeAttribute args).run t).1 = .error (Realm.thrown (.contextDisposed c.id)) ∧
      Moves t ((r.removeAttribute args).run t).2
  parse (markup : String) : parseMarkup i markup t = (.error (.contextDisposed c.id), t)
  native (p : Performer) (dispatcher : Nat) {c₀ : Context}
    (hc₀ : { c₀ with valid := false } = c) : Silenced c.id (nativeSurroundings p dispatcher i c₀) t
  script {r : Realm} (hc : { r.context with valid := false } = c) :
    Silenced c.id (scriptSurroundings r i) t
  /-- Whatever is performed next is more of the same. -/
  performed (depth : Nat) (step : Step) : Moves t (perform depth step t).2
  /-- So is an action to which others react, if they keep to moves from here on. -/
  reacted (p : Performer) (hp : ∀ step, Orderly t (p step)) (a : Action Step) :
    Moves t (performAction p a t).2

namespace Disposed

variable {i : Nat} {c c₀ : Context} {s t : Session}

theorem append_eq (hd : Disposed i c t) (p : Performer) (command : Command) :
    appendCommand p c.queue command t = (.error (.contextDisposed c.id),
      (quietOutlet c.queue).log (.commandRefused c.id command.kind command.target) t) := by
  have hrefused := (outlet p c.queue).append_of_closed (c := command) (s := t) hd.closed
  rw [show ((outlet p c.queue).queue t).context = c.id from hd.named] at hrefused
  exact hrefused

theorem desk_append_eq (hd : Disposed i c t) (p : Performer) (hc₀ : { c₀ with valid := false } = c)
    (command : Command) :
    (desk p c₀).append command t = (.error (.contextDisposed c.id),
      (quietOutlet c.queue).log (.commandRefused c.id command.kind command.target) t) := by
  subst hc₀
  exact hd.append_eq p command

theorem set_refused (hd : Disposed i c t) (p : Performer) (hc₀ : { c₀ with valid := false } = c)
    (d : Style.Declaration) {name value : String} (h : (desk p c₀).SetNeeds d name value t) :
    (setProperty p c₀ d name value t).1 = .error (.contextDisposed c.id) ∧
      (setProperty p c₀ d name value t).2.queues = t.queues := by
  obtain ⟨key, s₁, v, s₂, hkey, hvalue, houtcome⟩ := (desk p c₀).set_outcome d name value t
  simp only [Style.Desk.SetNeeds, hkey, hvalue] at h
  -- the atoms of name and value are taken before the append, and no queue changes by that
  have hqueues : s₂.queues = t.queues := by
    obtain ⟨-, rfl⟩ := Prod.mk.inj hkey
    obtain ⟨-, rfl⟩ := Prod.mk.inj hvalue
    rfl
  have hd₂ := hd.moves ((moves_holding c₀ hkey).trans (moves_holding c₀ hvalue))
  show ((desk p c₀).set d name value t).1 = _ ∧ ((desk p c₀).set d name value t).2.queues = _
  generalize (desk p c₀).set d name value t = r at houtcome
  cases houtcome with
  | same hsame => exact absurd hsame h
  | made _ happend =>
    rw [hd₂.desk_append_eq p hc₀] at happend
    exact absurd (congrArg Prod.fst happend) (by simp)
  | refused _ happend =>
    rw [hd₂.desk_append_eq p hc₀] at happend
    obtain ⟨hfault, rfl⟩ := Prod.mk.inj happend
    exact ⟨hfault.symm, hqueues⟩

theorem remove_refused (hd : Disposed i c t) (p : Performer)
    (hc₀ : { c₀ with valid := false } = c) (d : Style.Declaration) {name : String}
    (h : (desk p c₀).RemoveNeeds d name t) :
    (removeProperty p c₀ d name t).1 = .error (.contextDisposed c.id) ∧
      (removeProperty p c₀ d name t).2.queues = t.queues := by
  obtain ⟨key, s₁, hkey, houtcome⟩ := (desk p c₀).remove_outcome d name t
  simp only [Style.Desk.RemoveNeeds, hkey] at h
  have hqueues : s₁.queues = t.queues := by
    obtain ⟨-, rfl⟩ := Prod.mk.inj hkey
    rfl
  have hd₁ := hd.moves (moves_holding c₀ hkey)
  show ((desk p c₀).remove d name t).1 = _ ∧ ((desk p c₀).remove d name t).2.queues = _
  generalize (desk p c₀).remove d name t = r at houtcome
  cases houtcome with
  | unset hnone => exact absurd hnone h
  | made _ happend =>
    rw [hd₁.desk_append_eq p hc₀] at happend
    exact absurd (congrArg Prod.fst happend) (by simp)
  | gone _ happend =>
    rw [hd₁.desk_append_eq p hc₀] at happend
    exact absurd (congrArg Prod.fst happend) (by simp)
  | refused _ happend =>
    rw [hd₁.desk_append_eq p hc₀] at happend
    obtain ⟨hfault, rfl⟩ := Prod.mk.inj happend
    injection hfault with hfault
    exact ⟨congrArg Except.error hfault.symm, hqueues⟩

end Disposed

/-! ### Functions of a runtime -/

/-- Holding an atom meanwhile makes no difference to the outcome. -/
theorem holdingAtom_fst {α : Type} (r : Realm) (text : String) (act : ScriptM α) (s : Session) :
    ((r.holdingAtom text act).run s).1 =
      (act.run (holding (fun h => h.take r.context.table text) s).2).1 := rfl

namespace Disposed

variable {i : Nat} {c : Context} {t : Session} {r : Realm}

theorem appendAttribute_refused (hd : Disposed i c t) (hr : r.Lawful t)
    (hc : { r.context with valid := false } = c) {kind : CommandKind} {operation : String}
    {args : List Value} {value : ScriptM (Option String)} (hvalue : Orderly t value.run)
    (h : r.Fits operation args value t) :
    ((r.appendAttribute kind operation args value).run t).1 =
      .error (Realm.thrown (.contextDisposed c.id)) := by
  obtain ⟨target, name, s₁, v, s₂, htarget, hname, hv⟩ := h
  -- bringing the arguments into shape may call functions of the script, by moves only
  have h₁ : Moves t s₁ := (Realm.along_requiredText hr.keeps args[1]? operation).moves .refl hname
  have htake : Move s₁ (holding (fun h => h.take r.context.table name) s₁).2 :=
    .elsewhere ⟨rfl, rfl, rfl, rfl⟩
  have h₂ : Moves t s₂ := (h₁.tail htake).trans (hvalue.moves (h₁.tail htake) hv)
  have happend : (appendCommand r.perform r.context.queue
      (.make target kind (some name) v none) s₂).1 = .error (.contextDisposed c.id) := by
    subst hc
    exact congrArg Prod.fst ((hd.moves h₂).append_eq r.perform _)
  rw [Realm.appendAttribute, run_bind_of_ok htarget, run_bind_of_ok hname, holdingAtom_fst,
    run_bind_of_ok hv, run_lift_bind, happend]
  rfl

theorem setStyle_refused (hd : Disposed i c t) (hr : r.Lawful t)
    (hc : { r.context with valid := false } = c) {args : List Value} (h : r.StyleNeeds args t) :
    ((r.setStyle args).run t).1 = .error (Realm.thrown (.contextDisposed c.id)) := by
  obtain ⟨target, name, s₁, value, s₂, htarget, hname, hvalue, hneeds⟩ := h
  have h₁ : Moves t s₁ := (Realm.along_requiredText hr.keeps args[1]? _).moves .refl hname
  have h₂ : Moves t s₂ := h₁.trans ((Realm.along_text? hr.keeps args[2]?).moves h₁ hvalue)
  have h₃ := h₂.trans ((Realm.along_styleOf r.runtime target).orderly s₂ h₂)
  have hd₃ := hd.moves h₃
  rw [Realm.setStyle, run_bind_of_ok htarget, run_bind_of_ok hname, run_bind_of_ok hvalue,
    run_lift_bind]
  dsimp only at hneeds ⊢
  split at hneeds
  -- an empty value removes the property
  next hempty =>
    rw [if_pos hempty, run_lift_bind, (hd₃.remove_refused r.perform hc _ hneeds).1]
    rfl
  next hne =>
    rw [if_neg hne, run_lift_bind, (hd₃.set_refused r.perform hc _ hneeds).1]
    rfl

theorem parse_refused (hd : Disposed i c t) (markup : String) :
    parseMarkup i markup t = (.error (.contextDisposed c.id), t) := by
  have hcontext : contextAt i t = (c, t) := by
    show (t.contexts[i]?.getD default, t) = _
    rw [hd.context]
    rfl
  rw [parseMarkup, bind_apply, hcontext]
  dsimp only
  rw [if_neg (by simp [hd.invalid])]
  rfl

end Disposed

/-! ### Dispatches -/

theorem tidy_native (p : Performer) (i context : Nat) (c : Context) :
    (nativeSurroundings p i context c).Tidy where
  roster_log _ _ := rfl
  isValid_log _ _ := rfl
  handles_unlink s := by
    show (((s.dispatchers.modify i fun d => _)[i]?).getD default).roster.handles = []
    rw [Array.getElem?_modify, if_pos rfl]
    cases s.dispatchers[i]? with
    | none => rfl
    | some d => rfl

theorem tidy_script (r : Realm) (context : Nat) : (scriptSurroundings r context).Tidy where
  roster_log _ _ := rfl
  isValid_log _ _ := rfl
  handles_unlink s := by
    show (((s.runtimes.modify r.runtime fun r => _)[r.runtime]?).getD default).roster.handles = []
    rw [Array.getElem?_modify, if_pos rfl]
    cases s.runtimes[r.runtime]? with
    | none => rfl
    | some d => rfl

theorem silenced {L : Type} {w : Surroundings Session L} {t : Session} (hw : w.Tidy)
    (hinvalid : w.isValid t = false) : Silenced w.context w t where
  invalid := hinvalid
  refused := Surroundings.dispatch_of_invalid hinvalid
  unlinked := hw.handles_unlink t
  uncalled hcall module event extra u := Surroundings.dispatch_calling hcall hw module event extra u
  cleared module event extra _ hend := Surroundings.handles_dispatch hw module event extra hend

namespace Disposed

variable {i : Nat} {c c₀ : Context} {s t : Session}

theorem isValid_eq (hd : Disposed i c t) : (t.contexts[i]?.getD default).valid = false := by
  rw [hd.context]
  exact hd.invalid

theorem again (hd : Disposed i c t) : disposeContext i t = ((), t) := by
  have hsnd := disposeContext_snd i t
  dsimp only at hsnd
  rw [if_neg (by simp [hd.isValid_eq])] at hsnd
  exact Prod.ext rfl hsnd

/-! ### What waits -/

theorem conserved (hd : Disposed i c s) {h : List Outlet.Event}
    (run : (quietOutlet c.queue).Run s h t) :
    Outlet.drained h ++ ((quietOutlet c.queue).queue t).pending.toList =
      ((quietOutlet c.queue).queue s).pending.toList := by
  have hlaw := quietOutlet_lawful c.queue
  have hs := holds_quietOutlet_iff.mpr hd.queue_lt
  -- a queue loses nothing, and a closed one accepts nothing
  rw [run.drained_append_pending hlaw hs, run.accepted_of_closed hlaw hs hd.closed, List.append_nil]

/-- All of it together. -/
theorem terminal_of_moves (hd : Disposed i c s) (hrun : Moves s t) : Terminal i c s t where
  disposed := hd.moves hrun
  again := (hd.moves hrun).again
  history := (hrun.run hd.queue_lt).2
  conserved _ run := hd.conserved run
  append := (hd.moves hrun).append_eq
  set p _ hc₀ d _ _ h := (hd.moves hrun).set_refused p hc₀ d h
  remove p _ hc₀ d _ h := (hd.moves hrun).remove_refused p hc₀ d h
  setStyle hr hc args h :=
    ⟨(hd.moves hrun).setStyle_refused hr hc h, (Realm.along_setStyle hr.keeps args).orderly t .refl⟩
  setAttribute {r} hr hc args h := by
    have hvalue : Orderly t (do return some ((← r.text? args[2]?).getD "") : ScriptM _).run :=
      (.run_bind (Realm.along_text? hr.keeps args[2]?) fun _ => .run_pure _ : Along (MovesSince t) _)
    exact ⟨(hd.moves hrun).appendAttribute_refused hr hc hvalue h,
      (Realm.along_setAttribute hr.keeps args).orderly t .refl⟩
  removeAttribute hr hc args h :=
    ⟨(hd.moves hrun).appendAttribute_refused hr hc (.pure _) h,
      (Realm.along_removeAttribute hr.keeps args).orderly t .refl⟩
  parse := (hd.moves hrun).parse_refused
  native p dispatcher c₀ hc₀ := by
    subst hc₀
    exact silenced (tidy_native p dispatcher i c₀) (hd.moves hrun).isValid_eq
  script {r} hc := by
    subst hc
    exact silenced (tidy_script r i) (hd.moves hrun).isValid_eq
  performed depth step := orderly_perform depth step t .refl
  reacted p hp a := (along_performAction (R := MovesSince t) hp a).orderly t .refl

end Disposed

/-! ### Disposing -/

section Disposing

variable {i : Nat} {c : Context} {s s' : Session}

theorem disposeContext_spec (hc : s.contexts[i]? = some c) :
    (disposeContext i s).2.contexts[i]? = some { c with valid := false } ∧
      ((quietOutlet c.queue).queue (disposeContext i s).2).pending =
        ((quietOutlet c.queue).queue s).pending := by
  rw [disposeContext_snd, hc]
  dsimp only [Option.getD_some]
  split
  next hvalid =>
    constructor
    · show (s.contexts.modify i fun c => { c with valid := false })[i]? = _
      rw [Array.getElem?_modify, if_pos rfl, hc]
      rfl
    · simp only [quietOutlet, Outlet.close, Queue.close, Array.getElem?_modify, if_true]
      cases s.queues[c.queue]? <;> rfl
  -- a context that was invalid already is what it should be
  next hinvalid =>
    have hsame : { c with valid := false } = c := by simp only [← Bool.not_eq_true _ ▸ hinvalid]
    exact ⟨hsame ▸ hc, rfl⟩

theorem elsewhere_releaseContext (context : Nat) (s : Session) :
    Elsewhere s (releaseContext context s).2 := by
  have hnone : ∀ u : Session, Elsewhere u u := fun _ => ⟨rfl, rfl, rfl, rfl⟩
  rw [releaseContext, get_bind_apply]
  cases s.contexts[context]? with
  | none => exact hnone s
  | some c =>
    dsimp only
    split
    · exact hnone s
    · exact ⟨rfl, rfl, rfl, rfl⟩

/-- Striking a context out of a registry is disposing of it, as far as contexts and queues go. -/
theorem strikeContext_snd {registry : Nat} {id : ContextId}
    (h : ((s.registries[registry]?.getD default).registry.remove id).1 = some i) :
    ∃ u, Elsewhere s u ∧ Elsewhere (disposeContext i u).2 (strikeContext registry id s).2 := by
  have hregistry : registryAt registry s = (s.registries[registry]?.getD default, s) := rfl
  rw [strikeContext, bind_apply, hregistry]
  dsimp only
  rcases hremove : (s.registries[registry]?.getD default).registry.remove id with ⟨found, left⟩
  rw [hremove] at h
  obtain rfl : found = some i := h
  exact ⟨(modifyRegistry registry (fun _ => left) s).2, ⟨rfl, rfl, rfl, rfl⟩,
    elsewhere_releaseContext i _⟩

/-- However it is done, disposing leaves the context invalid, and what waits in its queue. -/
theorem Disposing.spec (h : Disposing i s s') (hc : s.contexts[i]? = some c) :
    Moves s s' ∧ s'.contexts[i]? = some { c with valid := false } ∧
      ((quietOutlet c.queue).queue s').pending = ((quietOutlet c.queue).queue s).pending := by
  cases h with
  | directly => exact ⟨.single (.dispose i s), disposeContext_spec hc⟩
  | struck registry id _ hstruck =>
    -- what the registry does before and after leaves contexts and queues alone
    obtain ⟨u, hu, hstrike⟩ := strikeContext_snd hstruck
    have hqueue : ∀ {s t : Session}, Elsewhere s t →
        (quietOutlet c.queue).queue t = (quietOutlet c.queue).queue s :=
      fun h => congrArg (fun queues : Array QueueObject => (queues[c.queue]?.getD default).queue)
        h.queues
    obtain ⟨hcontext, hpending⟩ := disposeContext_spec (hu.contexts ▸ hc : u.contexts[i]? = some c)
    refine ⟨(along_strikeContext registry id).orderly s .refl, hstrike.contexts ▸ hcontext, ?_⟩
    rw [hqueue hstrike, hpending, hqueue hu]

/-- **Disposal is terminal.**  Whenever a context is disposed of, in whatever way, what waited in
its queue waits still, and whatever happens afterwards, `Terminal` holds. -/
theorem Disposing.terminal {t : Session} (hs : Moves {} s) (hc : s.contexts[i]? = some c)
    (h : Disposing i s s') (hrun : Moves s' t) :
    ((quietOutlet c.queue).queue s').pending = ((quietOutlet c.queue).queue s).pending ∧
      Terminal i { c with valid := false } s' t := by
  obtain ⟨hmoves, hcontext, hpending⟩ := h.spec hc
  have hsound : Sound s' := Moves.sound (hs.trans hmoves) sound_empty
  exact ⟨hpending, (hsound.disposed hcontext rfl).terminal_of_moves hrun⟩

end Disposing

/-! ### A context that is disposed of -/

def sampleCommand : Command := .make 1 .createElement (some "div") none none

def sampleContext : Context :=
  { id := 7, config := { batchUpdates := true }, gate := 0, queue := 0, timeline := 0, table := 0,
    names := 0 }

/-- A session with one context, in whose queue a command is waiting. -/
def sampleSession : Session :=
  (appendCommand (perform 0) 0 sampleCommand
    (addContext 7 { batchUpdates := true } 0 (.host 0) none {}).2).2

/-- What comes of it when the context is disposed of, another command is tried, and the queue is
drained. -/
def sampleAftermath : Session :=
  ((outlet (perform 0) 0).drain
    (appendCommand (perform 0) 0 sampleCommand (disposeContext 0 sampleSession).2).2).2

theorem sampleSession_reached : Moves {} sampleSession := by
  have hcontext := (along_addContext 7 { batchUpdates := true } 0 (.host 0) none).orderly {} .refl
  have happend := along_appendCommand (R := MovesSince {}) (orderly_perform 0) 0 sampleCommand
  exact hcontext.trans (happend _ hcontext)

theorem sampleAftermath_reached : Moves (disposeContext 0 sampleSession).2 sampleAftermath :=
  ((along_appendCommand (along_perform 0) 0 sampleCommand).orderly _ .refl).tail
    (.queue 0 (.drain _))

set_option maxRecDepth 4000 in
theorem sampleSession_terminal :
    (∃ h, (quietOutlet 0).Run (disposeContext 0 sampleSession).2 h sampleAftermath ∧
      Outlet.drained h = [sampleCommand]) ∧
    (let r := Realm.outermost (perform 0) 0 sampleContext
     let refused := Except.error (Realm.thrown (.contextDisposed 7))
     ((r.setAttribute [.number (.ofNat 1), .text "id", .text "x"]).run sampleAftermath).1 = refused ∧
     ((r.setStyle [.number (.ofNat 1), .text "color", .text "red"]).run sampleAftermath).1 =
       refused) := by
  obtain ⟨hpending, hterminal⟩ := Disposing.terminal (i := 0) (c := sampleContext)
    sampleSession_reached rfl (.directly sampleSession) sampleAftermath_reached
  have hr := Realm.lawful_outermost (orderly_perform 0) 0 sampleContext (o := sampleAftermath)
  obtain ⟨h, hrun⟩ := hterminal.history
  have hdrained := hterminal.conserved h hrun
  rw [hpending] at hdrained
  refine ⟨⟨h, hrun, ?_⟩, ?_, ?_⟩
  · have hafter : ((quietOutlet sampleContext.queue).queue sampleAftermath).pending.toList = [] := rfl
    rwa [hafter, List.append_nil] at hdrained
  · exact (hterminal.setAttribute hr rfl ⟨_, _, _, _, _, rfl, rfl, rfl⟩).1
  · have hneeds : (Realm.outermost (perform 0) 0 sampleContext).StyleNeeds
        [.number (.ofNat 1), .text "color", .text "red"] sampleAftermath := by
      refine ⟨_, _, _, _, _, rfl, rfl, rfl, ?_⟩
      dsimp only
      rw [if_neg (by decide)]
      exact fun h => nomatch h
    exact (hterminal.setStyle hr rfl hneeds).1

end ScriptHost.Session
