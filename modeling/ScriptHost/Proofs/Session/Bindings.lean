/-
What holds along the functions of a script runtime.

A script works on the session through these functions.  Bringing an argument into shape may call a
function that the script has put into an object, so the lemmas ask what is done along such calls and
follow the recursion of the conversions; what a function then does to the session it does by
operations that are known.
-/
import ScriptHost.Proofs.Session.Contexts

namespace ScriptHost.Session

open Script (Value Binding Invoke Callable ScriptError)

variable {R : Session → Session → Prop} [Pervasive R]

theorem along_settled {α : Type} (outcome : Except Value α) :
    Along R (Script.settled outcome : ScriptM α).run := .pure outcome

section Conversion

variable {call : Invoke SessionM}

theorem along_ownPrimitive (hcall : CallsAlong R call) (props : List (String × Value))
    (method : String) : Along R (Script.ownPrimitive call props method).run := by
  rw [Script.ownPrimitive]
  split
  · exact .run_pure _
  · exact .run_bind (hcall _ _) fun v => .run_pure _

theorem along_ownText (hcall : CallsAlong R call) (props : List (String × Value))
    (method : String) : Along R (Script.ownText call props method).run := by
  unfold Script.ownText
  refine .run_bind (along_ownPrimitive hcall props method) fun own => ?_
  split
  · exact .run_pure _
  · exact .run_bind (along_settled _) fun _ => .run_pure _

-- on the value: its items and the texts of its members are converted in the same way

mutual

theorem along_toText (hcall : CallsAlong R call) (v : Value) :
    Along R (Script.toText call v).run := by
  unfold Script.toText
  cases v with
  | array items => exact .run_bind (along_itemTexts hcall items) fun _ => .run_pure _
  | vacant n => exact .run_pure _
  | function f => exact .run_pure _
  | cyclic => exact .run_pure _
  | object cls props =>
    refine .run_bind (along_ownText hcall props _) fun own => ?_
    split
    · exact .run_pure _
    · split
      · refine .run_bind (along_ownText hcall props _) fun own => ?_
        split
        · exact .run_pure _
        · exact .run_throw _
      · split
        · exact .run_pure _
        · exact .run_pure _
        · refine .run_bind (along_memberText hcall _ _ props) fun _ => ?_
          exact .run_bind (along_memberText hcall _ _ props) fun _ => .run_pure _
  | _ => exact along_settled _

theorem along_itemTexts (hcall : CallsAlong R call) (items : List Value) :
    Along R (Script.itemTexts call items).run := by
  unfold Script.itemTexts
  cases items with
  | nil => exact .run_pure _
  | cons v rest =>
    -- both before the cases on `v`, where its size would no longer be seen to be smaller
    have hrest := along_itemTexts hcall rest
    have hv := along_toText hcall v
    cases v with
    | undefined => exact .run_bind hrest fun _ => .run_pure _
    | null => exact .run_bind hrest fun _ => .run_pure _
    | hole => exact .run_bind hrest fun _ => .run_pure _
    | _ => exact .run_bind hv fun _ => .run_bind hrest fun _ => .run_pure _

theorem along_memberText (hcall : CallsAlong R call) (key blank : String)
    (props : List (String × Value)) : Along R (Script.memberText call key blank props).run := by
  unfold Script.memberText
  match props with
  | [] => exact .run_pure _
  | (k, v) :: rest =>
    have hrest := along_memberText hcall key blank rest
    have hv := along_toText hcall v
    dsimp only
    split
    · cases v with
      | undefined => exact .run_pure _
      | _ => exact .run_bind hv fun _ => .run_pure _
    · exact hrest

end

theorem along_display (hcall : CallsAlong R call) (v : Value) :
    Along R (Script.display call v).run := by
  unfold Script.display
  split
  · exact .run_pure _
  · exact along_toText hcall v

theorem along_toNumber (hcall : CallsAlong R call) (v : Value) :
    Along R (Script.toNumber call v).run := by
  unfold Script.toNumber
  split
  · refine .run_bind (along_ownPrimitive hcall _ _) fun own => ?_
    split
    · exact along_settled _
    · exact .run_bind (along_toText hcall _) fun _ => .run_pure _
  · split
    · exact .run_bind (along_toText hcall _) fun _ => .run_pure _
    · exact along_settled _

theorem along_jsonForm (hcall : CallsAlong R call) (key : String) (v : Value) :
    Along R (Script.jsonForm call key v).run := by
  unfold Script.jsonForm
  split
  · split
    · exact hcall _ _
    · exact .run_pure _
  · exact .run_pure _

theorem along_stringify (hcall : CallsAlong R call) (depth : Nat) (key : String) (v : Value) :
    Along R (Script.stringify call depth key v).run := by
  -- on the depth; a value that is nested more deeply is an error
  induction depth generalizing key v with
  | zero => exact .run_throw _
  | succ depth ih =>
    rw [Script.stringify]
    refine .run_bind (along_jsonForm hcall key v) fun form => ?_
    cases form with
    | array items => exact .run_bind (.run_mapM (fun _ => ih _ _) _) fun _ => .run_pure _
    | object cls props =>
      refine .run_bind (.run_mapM (fun p => ?_) _) fun _ => .run_pure _
      exact .run_bind (ih p.1 p.2) fun _ => .run_pure _
    | bigint i => exact .run_throw _
    | cyclic => exact .run_throw _
    | _ => exact .run_pure _

theorem along_textOrEmpty (hcall : CallsAlong R call) (v : Value) :
    Along R (Script.textOrEmpty call v) := by
  rw [Script.textOrEmpty]
  refine .bind (along_toText hcall v) fun outcome => ?_
  cases outcome <;> exact .pure _

theorem along_ofThrown (hcall : CallsAlong R call) (thrown : Value) :
    Along R (ScriptError.ofThrown call thrown) := by
  unfold ScriptError.ofThrown
  split
  · split
    all_goals first
      | exact .bind (.pure _) fun _ => .pure _
      | exact .bind (along_textOrEmpty hcall _) fun _ => .pure _
  · exact .bind (along_textOrEmpty hcall _) fun _ => .pure _

end Conversion

/-! ### Functions of a runtime -/

namespace Realm

theorem along_orThrow {α : Type} (outcome : Except Fault α) : Along R (orThrow outcome).run := by
  cases outcome with
  | ok a => exact .run_pure a
  | error f => exact .run_throw _

theorem along_targetId (args : List Value) (operation : String) :
    Along R (targetId args operation).run := by
  rw [targetId]
  split
  · exact .run_pure _
  · exact .run_throw _

section Bindings

variable {r : Realm} (hr : r.Keeps R)
include hr

theorem along_text? (v : Option Value) : Along R (r.text? v).run := by
  cases v with
  | none => exact .run_pure _
  | some v =>
    unfold text?
    dsimp only
    split
    · exact .run_pure _
    · exact .run_bind (along_toText hr.call v) fun _ => .run_pure _

theorem along_entryName (args : List Value) (operation : String) :
    Along R (r.entryName args operation).run := by
  rw [entryName]
  split
  · exact .run_throw _
  · exact .run_bind (along_text? hr _) fun _ => .run_pure _

theorem along_requiredText (v : Option Value) (operation : String) :
    Along R (r.requiredText v operation).run := by
  rw [requiredText]
  refine .run_bind (along_text? hr v) fun text => ?_
  split
  · exact .run_pure _
  · exact .run_throw _

omit hr in
theorem along_snapshot : Along R r.snapshot.run := by
  rw [snapshot]
  refine .run_bind (.run_lift (along_nowOf _)) fun _ => ?_
  exact .run_bind (.run_lift (along_timelineAt _)) fun _ => .run_pure _

theorem along_mark (args : List Value) : Along R (r.mark args).run := by
  rw [mark]
  refine .run_bind (along_entryName hr args _) fun name => ?_
  exact .run_bind (.run_lift (along_markTimeline _ _ _)) fun _ => .run_pure _

theorem along_measure (args : List Value) : Along R (r.measure args).run := by
  rw [measure]
  refine .run_bind (along_entryName hr args _) fun name => ?_
  refine .run_bind (along_text? hr _) fun start => .run_bind (along_text? hr _) fun finish => ?_
  refine .run_bind (.run_lift (along_measureTimeline _ _ _ _)) fun outcome => ?_
  exact .run_bind (along_orThrow outcome) fun _ => .run_pure _

theorem along_clear (type : EntryType) (args : List Value) :
    Along R (r.clear type args).run := by
  rw [clear]
  refine .run_bind (along_text? hr _) fun name => ?_
  exact .run_bind (.run_lift (along_clearTimeline _ _ _)) fun _ => .run_pure _

omit hr in
theorem along_getEntries : Along R r.getEntries.run :=
  .run_bind (.run_lift (along_mergedEntries _)) fun _ => .run_pure _

theorem along_getEntriesByName (args : List Value) :
    Along R (r.getEntriesByName args).run := by
  rw [getEntriesByName]
  refine .run_bind (along_entryName hr args _) fun name => ?_
  exact .run_bind (.run_lift (along_mergedEntries _)) fun _ => .run_pure _

theorem along_getEntriesByType (args : List Value) :
    Along R (r.getEntriesByType args).run := by
  rw [getEntriesByType]
  refine .run_bind (along_entryName hr args _) fun type => ?_
  split
  · exact .run_bind (.run_lift (along_mergedEntries _)) fun _ => .run_pure _
  · exact .run_pure _

omit hr in
/-- A roster is read, changed and put back. -/
theorem along_changeRoster {α β : Type} {f : Roster Callable → α × Roster Callable}
    (hf : ∀ roster : Roster Callable, roster.Later (f roster).2) {k : α → ScriptM β}
    (hk : ∀ a, Along R (k a).run) (runtime : Nat) :
    Along R (do
      let (a, roster) := f (← rosterAt runtime)
      setRoster runtime roster
      k a : ScriptM β).run := by
  intro s
  -- nobody is called between the reading and the putting back, so the two are one change
  have hchange : R s (setRoster runtime (f (s.runtimes[runtime]?.getD default).roster).2 s).2 :=
    Pervasive.runtime runtime _ s rfl (hf _)
  exact (hk _).after hchange

omit hr in
theorem along_addModuleListener (args : List Value) :
    Along R (r.addModuleListener args).run := by
  unfold addModuleListener
  split
  · exact .run_throw _
  · split
    · exact .run_throw _
    next f _ =>
      have htell : ∀ handle, Along R (do
          log (.listenerRegistered r.context.id handle)
          return Value.ofNat handle : ScriptM Value).run :=
        fun handle => .run_bind (.run_lift (along_log rfl)) fun _ => .run_pure _
      exact along_changeRoster (fun roster => .single (.register f roster)) htell _

omit hr in
theorem unregisterExact_later {L : Type} (x : Binary64) (roster : Roster L) :
    roster.Later (unregisterExact roster x).2 := by
  rw [unregisterExact]
  split
  next handle _ => exact .single (.unregister handle roster)
  next => exact .refl

omit hr in
theorem along_removeModuleListener (args : List Value) :
    Along R (r.removeModuleListener args).run := by
  rw [removeModuleListener]
  split
  · exact .run_throw _
  next x _ =>
    have hanswer : ∀ found, Along R (Pure.pure (Value.bool found) : ScriptM Value).run :=
      fun found => .run_pure _
    exact along_changeRoster (unregisterExact_later x) hanswer _

theorem along_moduleParams (v : Option Value) : Along R (r.moduleParams v).run := by
  unfold moduleParams
  split
  · exact .run_pure _
  · exact .run_pure _
  · split
    · exact .run_pure _
    · exact along_stringify hr.call _ _ _

theorem along_invokeModule (args : List Value) : Along R (r.invokeModule args).run := by
  rw [invokeModule]
  split
  · exact .run_throw _
  · refine .run_bind (along_text? hr _) fun module => ?_
    refine .run_bind (along_text? hr _) fun method => ?_
    refine .run_bind (along_moduleParams hr _) fun params => ?_
    refine .run_bind (.run_lift (along_log rfl)) fun _ => ?_
    refine .run_bind (.run_lift (along_services _)) fun set => ?_
    refine .run_bind (.run_lift (along_invokeHostModule hr.perform _ _ _ _ _)) fun reply => ?_
    split <;> exact .run_pure _

/-! ### Commands of a script -/

omit hr in
theorem along_styleOf (runtime : Nat) (target : Int) : Along R (styleOf runtime target) := by
  rw [styleOf]
  refine .bind .get fun s => ?_
  split
  · exact .pure _
  · refine .bind (along_holding _) fun style => ?_
    exact .bind (along_modifyRuntime _ (fun _ => rfl) fun _ => rfl) fun _ => .pure _

theorem along_setStyle (args : List Value) : Along R (r.setStyle args).run := by
  rw [setStyle]
  refine .run_bind (along_targetId args _) fun target => ?_
  refine .run_bind (along_requiredText hr _ _) fun name => ?_
  refine .run_bind (along_text? hr _) fun value => ?_
  refine .run_bind (.run_lift (along_styleOf _ _)) fun style => ?_
  dsimp only
  split
  · refine .run_bind (.run_lift (along_removeProperty hr.perform _ _ _)) fun outcome => ?_
    refine .run_bind (along_orThrow outcome) fun old => ?_
    exact .run_bind (.run_lift (along_changeHoldings _)) fun _ => .run_pure _
  · refine .run_bind (.run_lift (along_setProperty hr.perform _ _ _ _)) fun outcome => ?_
    exact .run_bind (along_orThrow outcome) fun _ => .run_pure _

omit hr in
theorem along_holdingAtom {α : Type} (text : String) {act : ScriptM α} (h : Along R act.run) :
    Along R (r.holdingAtom text act).run :=
  .bind (along_holding _) fun _ => .bind h fun outcome =>
    .bind (along_changeHoldings _) fun _ => .pure outcome

theorem along_appendAttribute (kind : CommandKind) (operation : String) (args : List Value)
    {value : ScriptM (Option String)} (hvalue : Along R value.run) :
    Along R (r.appendAttribute kind operation args value).run := by
  rw [appendAttribute]
  refine .run_bind (along_targetId args _) fun target => ?_
  refine .run_bind (along_requiredText hr _ _) fun name => along_holdingAtom name ?_
  refine .run_bind hvalue fun value => ?_
  refine .run_bind (.run_lift (along_appendCommand hr.perform _ _)) fun outcome => ?_
  exact .run_bind (along_orThrow outcome) fun _ => .run_pure _

theorem along_setAttribute (args : List Value) : Along R (r.setAttribute args).run :=
  along_appendAttribute hr _ _ args (.run_bind (along_text? hr _) fun _ => .run_pure _)

theorem along_removeAttribute (args : List Value) : Along R (r.removeAttribute args).run :=
  along_appendAttribute hr _ _ args (.run_pure _)

theorem along_flushUICommand : Along R r.flushUICommand.run := by
  rw [flushUICommand]
  refine .run_bind (.run_lift (along_flushQueue hr.perform _)) fun pending => ?_
  refine .run_bind (.run_lift (along_services _)) fun set => ?_
  exact .run_bind (.run_lift (along_callService hr.perform _ _ _ _)) fun _ => .run_pure _

theorem along_apply (b : Binding) (args : List Value) : Along R (r.apply b args).run := by
  cases b with
  | now => exact .run_bind (.run_lift (along_nowOf _)) fun _ => .run_pure _
  | toJSON => exact along_snapshot
  | mark => exact along_mark hr args
  | measure => exact along_measure hr args
  | clearMarks => exact along_clear hr _ args
  | clearMeasures => exact along_clear hr _ args
  | getEntries => exact along_getEntries
  | getEntriesByName => exact along_getEntriesByName hr args
  | getEntriesByType => exact along_getEntriesByType hr args
  | summary => exact .run_bind (.run_lift (along_summarize _)) fun _ => .run_pure _
  | addModuleListener => exact along_addModuleListener args
  | removeModuleListener => exact along_removeModuleListener args
  | invokeModule => exact along_invokeModule hr args
  | setStyle => exact along_setStyle hr args
  | setAttribute => exact along_setAttribute hr args
  | removeAttribute => exact along_removeAttribute hr args
  | flushUICommand => exact along_flushUICommand hr

omit hr in
theorem along_global? (name : String) : Along R (r.global? name) := by
  rw [global?]
  refine .bind (along_timelineAt _) fun _ => ?_
  dsimp only
  split <;> exact .pure _

end Bindings

end Realm

end ScriptHost.Session
