/-
What holds along scripts, and along whatever a session performs.

Evaluation follows the recursion over terms and statements.  A function runs one level deeper than
its caller, so the knot is tied by induction on the depth (`along_callAt`), and in the same way for
the steps of reactions (`along_perform`).
-/
import ScriptHost.Proofs.Session.Bindings

namespace ScriptHost.Session

open Script (Value Callable Term Expr Operation Stmt ScriptError)

variable {R : Session → Session → Prop} [Pervasive R]

namespace Realm

/-! ### Evaluation -/

section Evaluation

variable {r : Realm}

theorem along_scope : Along R r.scope := .bind .get fun _ => .pure _

theorem along_keepVariable (name : String) (v : Value) : Along R (r.keepVariable name v) :=
  along_modifyRuntime _ (fun _ => rfl) fun _ => rfl

theorem along_record (runtime : Nat) (j : Json) : Along R (record runtime j) :=
  along_modifyRuntime _ (fun _ => rfl) fun _ => rfl

theorem along_enqueue (j : Job) : Along R (r.enqueue j) :=
  along_modifyRuntime _ (fun _ => rfl) fun _ => rfl

theorem along_valueOf (e : Expr) : Along R (r.valueOf e).run :=
  .run_bind (.run_lift along_scope) fun _ => .run_pure _

theorem along_valuesOf (es : List Expr) : Along R (r.valuesOf es).run :=
  .run_bind (.run_lift along_scope) fun _ => .run_pure _

theorem along_newArray (args : List Value) : Along R (newArray args).run := by
  unfold newArray
  split
  · split
    · exact .run_pure _
    · exact .run_throw _
  · exact .run_pure _

theorem along_instantiate (constructor : Value) (args : List Value) :
    Along R (instantiate constructor args).run := by
  unfold instantiate
  split
  · exact along_newArray args
  · split
    · exact .run_pure _
    · exact .run_throw _
  · exact .run_throw _

theorem along_callValue (hr : r.Keeps R) (v : Value) (args : List Value) :
    Along R (r.callValue v args).run := by
  rw [callValue]
  split
  · exact hr.call _ _
  · exact .run_throw _

theorem along_callOn (hr : r.Keeps R) (v receiver : Value) (args : List Value) :
    Along R (r.callOn v receiver args).run := by
  rw [callOn]
  split
  · exact hr.call _ _
  · exact .run_throw _

theorem along_keyOf (hr : r.Keeps R) (args : List Value) : Along R (r.keyOf args).run :=
  along_toText hr.call _

theorem along_callMethod (hr : r.Keeps R) (name : String) (receiver : Value)
    (args : List Value) : Along R (r.callMethod name receiver args).run := by
  unfold callMethod
  split
  · exact .run_bind (along_toText hr.call _) fun _ => .run_pure _
  · exact .run_bind (along_toText hr.call _) fun _ => .run_pure _
  · exact .run_pure _
  · exact .run_bind (along_keyOf hr args) fun _ => .run_pure _
  · refine .run_bind (along_keyOf hr args) fun key => ?_
    exact .run_bind (along_settled _) fun _ => .run_pure _
  · exact .run_pure _
  · exact along_newArray args
  · exact along_callOn hr _ _ _
  · exact along_callOn hr _ _ _
  · split
    · exact .run_pure _
    · exact .run_throw _
  · exact .run_pure _

theorem along_invoke (hr : r.Keeps R) (receiver v : Value) (args : List Value) :
    Along R (r.invoke receiver v args).run := by
  unfold invoke
  split
  · exact along_callMethod hr _ _ _
  · exact along_callValue hr _ _

mutual

theorem along_placeOf (hr : r.Keeps R) (t : Term) : Along R (r.placeOf t).run := by
  unfold placeOf
  cases t with
  | name name =>
    refine .run_bind (.run_lift (along_global? _)) fun found => ?_
    split
    · exact .run_pure _
    · exact .run_throw _
  | number x => exact .run_pure _
  | bigint i => exact .run_pure _
  | text s => exact .run_pure _
  | hole => exact .run_pure _
  | array items => exact .run_bind (along_termValues hr items) fun _ => .run_pure _
  | object members => exact .run_bind (along_memberValues hr members) fun _ => .run_pure _
  | typeOf t =>
    -- a name that is not declared is no error here
    have ht := along_placeOf hr t
    cases t with
    | name name => exact .run_bind (.run_lift (along_global? _)) fun _ => .run_pure _
    | _ => exact .run_bind ht fun _ => .run_pure _
  | minus t =>
    refine .run_bind (along_placeOf hr t) fun place => ?_
    split
    · exact .run_pure _
    · exact .run_bind (along_toNumber hr.call _) fun _ => .run_pure _
  | plus t =>
    refine .run_bind (along_placeOf hr t) fun place => ?_
    exact .run_bind (along_toNumber hr.call _) fun _ => .run_pure _
  | not t => exact .run_bind (along_placeOf hr t) fun _ => .run_pure _
  | void t => exact .run_bind (along_placeOf hr t) fun _ => .run_pure _
  | member owner name =>
    refine .run_bind (along_placeOf hr owner) fun place => ?_
    exact .run_bind (along_settled _) fun _ => .run_pure _
  | item owner key =>
    refine .run_bind (along_placeOf hr owner) fun place => ?_
    refine .run_bind (along_placeOf hr key) fun key => ?_
    refine .run_bind (along_settled _) fun _ => ?_
    refine .run_bind (along_toText hr.call _) fun text => ?_
    exact .run_bind (along_settled _) fun _ => .run_pure _
  | call callee args =>
    refine .run_bind (along_placeOf hr callee) fun place => ?_
    refine .run_bind (along_termValues hr args) fun args => ?_
    exact .run_bind (along_invoke hr _ _ _) fun _ => .run_pure _
  | construct constructor args =>
    refine .run_bind (along_placeOf hr constructor) fun place => ?_
    refine .run_bind (along_termValues hr args) fun args => ?_
    exact .run_bind (along_instantiate _ _) fun _ => .run_pure _

theorem along_termValues (hr : r.Keeps R) (ts : List Term) : Along R (r.termValues ts).run := by
  unfold termValues
  cases ts with
  | nil => exact .run_pure _
  | cons t rest =>
    refine .run_bind (along_placeOf hr t) fun place => ?_
    exact .run_bind (along_termValues hr rest) fun _ => .run_pure _

theorem along_memberValues (hr : r.Keeps R) (members : List (String × Term)) :
    Along R (r.memberValues members).run := by
  unfold memberValues
  match members with
  | [] => exact .run_pure _
  | (key, t) :: rest =>
    refine .run_bind (along_placeOf hr t) fun place => ?_
    exact .run_bind (along_memberValues hr rest) fun _ => .run_pure _

end

theorem along_valueOfTerm (hr : r.Keeps R) (t : Term) : Along R (r.valueOfTerm t).run :=
  .run_bind (along_placeOf hr t) fun _ => .run_pure _

theorem along_operate (hr : r.Keeps R) (op : Operation) : Along R (r.operate op).run := by
  cases op with
  | call callee args =>
    refine .run_bind (along_placeOf hr callee) fun place => ?_
    exact .run_bind (along_valuesOf args) fun _ => along_invoke hr _ _ _
  | get t => exact along_valueOfTerm hr t
  | typeOf t => exact along_valueOfTerm hr _
  | keys t =>
    refine .run_bind (along_valueOfTerm hr t) fun v => ?_
    exact .run_bind (along_settled _) fun _ => .run_pure _
  | listen label body => exact along_addModuleListener _

theorem along_recordValue (keep : Option String) (v : Value) :
    Along R (r.recordValue keep v) := by
  unfold recordValue
  refine .bind (along_record _ _) fun _ => ?_
  cases keep with
  | some name => exact along_keepVariable name v
  | none => exact .pure _

theorem along_recordThrown (hr : r.Keeps R) (thrown : Value) :
    Along R (r.recordThrown thrown).run := by
  unfold recordThrown
  split
  · refine .run_bind (along_settled _) fun _ => ?_
    refine .run_bind (along_display hr.call _) fun name => ?_
    refine .run_bind (along_settled _) fun _ => ?_
    exact .run_bind (along_display hr.call _) fun message => .run_lift (along_record _ _)
  · exact .run_lift (along_record _ _)

theorem along_performOperation (hr : r.Keeps R) (op : Operation) (keep : Option String)
    (raw : Bool) : Along R (r.performOperation op keep raw).run := by
  rw [performOperation]
  split
  · refine .run_bind (along_operate hr op) fun v => ?_
    exact .run_bind (.run_lift (along_recordValue keep v)) fun _ => .run_pure _
  · refine .run_bind (.run_lift (along_operate hr op)) fun outcome => ?_
    cases outcome with
    | ok v => exact .run_bind (.run_lift (along_recordValue keep v)) fun _ => .run_pure _
    | error thrown => exact .run_bind (along_recordThrown hr thrown) fun _ => .run_pure _

theorem along_statement (hr : r.Keeps R) (s : Stmt) : Along R (r.statement s).run := by
  cases s with
  | perform op keep raw => exact along_performOperation hr op keep raw
  | throw e => exact .run_bind (along_valueOf e) fun _ => .run_throw _
  | value e => exact along_valueOf e
  | term t => exact along_valueOfTerm hr t
  | broken => exact .run_throw _
  | promise body => exact .run_bind (.run_lift (along_enqueue _)) fun _ => .run_pure _
  | microtask body => exact .run_bind (.run_lift (along_enqueue _)) fun _ => .run_pure _
  | await forever => exact .run_pure _

theorem along_statements (hr : r.Keeps R) (code : List Stmt) (completion : Value) :
    Along R (r.statements code completion).run := by
  induction code generalizing completion with
  | nil => exact .run_pure _
  | cons s rest ih => exact .run_bind (along_statement hr s) fun v => ih v

theorem along_run (hr : r.Keeps R) (code : List Stmt) : Along R (r.run code).run :=
  along_statements hr code _

theorem along_callFunction (hr : r.Keeps R) (f : Callable) (args : List Value) :
    Along R (r.callFunction f args).run := by
  unfold callFunction
  split
  · exact along_valueOf _
  · exact .run_bind (along_valueOf _) fun _ => .run_throw _
  · exact .run_bind (along_run hr _) fun _ => along_valueOf _
  · refine .run_bind (.run_lift (along_record _ _)) fun _ => ?_
    exact .run_bind (along_run hr _) fun _ => .run_pure _
  · exact along_apply hr _ args
  · exact along_callMethod hr _ _ _
  · exact along_callMethod hr _ _ _
  · exact hr.call _ _

/-- A function does what it does one level deeper. -/
theorem along_callAt {p : Performer} (hp : ∀ step, Along R (p step)) (runtime : Nat)
    (c : Context) (depth : Nat) : CallsAlong R (callAt p runtime c depth) := by
  induction depth with
  | zero => exact fun f args => .run_throw _
  | succ depth ih => exact fun f args => along_callFunction ⟨hp, ih⟩ f args

theorem keeps_outermost {p : Performer} (hp : ∀ step, Along R (p step)) (runtime : Nat)
    (c : Context) : (outermost p runtime c).Keeps R :=
  ⟨hp, along_callAt hp runtime c greatestDepth⟩

end Evaluation

/-! ### Jobs and modules -/

section Jobs

variable {r : Realm} (hr : r.Keeps R)

theorem along_nextJob : Along R r.nextJob := by
  unfold nextJob
  refine .bind .get fun s => ?_
  split
  · exact .pure _
  · exact .bind (along_modifyRuntime _ (fun _ => rfl) fun _ => rfl) fun _ => .pure _

theorem along_addModule : Along R r.addModule :=
  .bind .get fun _ => .bind (along_modifyRuntime _ (fun _ => rfl) fun _ => rfl) fun _ => .pure _

include hr

theorem along_untilAwait (code : List Stmt) : Along R (r.untilAwait code).run := by
  induction code with
  | nil => exact .run_pure _
  | cons s rest ih =>
    unfold untilAwait
    cases s with
    -- the rest of the code is left for later
    | await forever => exact .run_pure _
    | _ => exact .run_bind (along_statement hr _) fun _ => ih

theorem along_advanceModule (module : Nat) (code : List Stmt) :
    Along R (r.advanceModule module code) := by
  rw [advanceModule]
  refine .bind (along_untilAwait hr code) fun outcome => ?_
  split
  · exact along_enqueue _
  · exact along_enqueue _
  · exact .pure _
  · exact along_enqueue _

theorem along_runJob (j : Job) : Along R (r.runJob j).run := by
  cases j with
  | run body swallows =>
    refine .bind (along_run hr body) fun outcome => ?_
    cases outcome <;> exact .pure _
  | resume module rest => exact .run_lift (along_advanceModule hr module rest)
  | settle module thrown => exact .run_lift (along_modifyRuntime _ (fun _ => rfl) fun _ => rfl)

theorem along_runJobs (limit : Nat) : Along R (r.runJobs limit).run := by
  induction limit with
  | zero => exact .run_pure _
  | succ limit ih =>
    rw [runJobs]
    refine .run_bind (.run_lift along_nextJob) fun next => ?_
    cases next with
    | none => exact .run_pure _
    | some j => exact .run_bind (along_runJob hr j) fun _ => ih

theorem along_finishModule (module limit : Nat) : Along R (r.finishModule module limit) := by
  induction limit with
  | zero => exact .pure _
  | succ limit ih =>
    rw [finishModule]
    refine .bind .get fun s => ?_
    split
    · exact .pure _
    · refine .bind along_nextJob fun next => ?_
      cases next with
      | none => exact .pure _
      | some j => exact .bind (along_runJob hr j) fun _ => ih

end Jobs

section Reports

variable {R : Session → Session → Prop} [Reporting R] {r : Realm} (hr : r.Keeps R)
include hr

theorem along_reportThrown (thrown : Value) : Along R (r.reportThrown thrown) :=
  .bind (along_ofThrown hr.call thrown) fun _ =>
    .bind (along_reportError hr.perform _ _) fun _ => .pure _

theorem along_reported {α : Type} (outcome : Except Value α) : Along R (r.reported outcome) := by
  cases outcome with
  | ok a => exact .pure _
  | error thrown => exact .bind (along_reportThrown hr thrown) fun _ => .pure _

theorem along_evaluate (code : List Stmt) : Along R (r.evaluate code) := by
  refine .bind ?_ fun outcome => along_reported hr outcome
  exact .run_bind (along_settled _) fun code => along_run hr code

theorem along_runAsync (code : List Stmt) : Along R (r.runAsync code) := by
  rw [runAsync]
  refine .bind along_addModule fun module => ?_
  refine .bind (along_advanceModule hr module code) fun _ => ?_
  refine .bind (along_finishModule hr module _) fun outcome => ?_
  split
  · exact .pure _
  · exact .bind (along_reportThrown hr _) fun _ => .pure _
  · exact .bind (along_reportError hr.perform _ _) fun _ => .pure _

theorem along_runModule (code : List Stmt) : Along R (r.runModule code) := by
  rw [runModule]
  split
  · exact along_runAsync hr code
  · exact .bind (along_run hr code) fun outcome =>
      .bind (along_reported hr outcome) fun _ => .pure _

theorem along_declareModule (name : String) (code : List Stmt) :
    Along R (r.declareModule name code) := by
  rw [declareModule]
  split
  · exact along_reported hr _
  · exact .bind (along_reportError hr.perform _ _) fun _ => .pure _

theorem along_evaluateModule (name : String) (code : List Stmt) :
    Along R (r.evaluateModule name code) := by
  rw [evaluateModule]
  refine .bind (along_declareModule hr name code) fun outcome => ?_
  cases outcome with
  | ok code => exact along_runModule hr code
  | error e => exact .pure _

end Reports

end Realm

/-! ### Runtimes -/

theorem along_runtimeAt (i : Nat) : Along R (runtimeAt i) := .bind .get fun _ => .pure _

theorem along_addRuntime (context : Nat) : Along R (addRuntime context) := by
  have hlog : ∀ c i, Along R (do log (.bindingsInstalled c); return i : SessionM Nat) :=
    fun c i => .bind (along_log rfl) fun _ => .pure _
  have hmark : ∀ timeline c i, Along R (do
      let _ ← markTimeline timeline Phase.bindingsEnd none
      log (.bindingsInstalled c)
      return i : SessionM Nat) :=
    fun timeline c i => .bind (along_markTimeline _ _ _) fun _ => hlog c i
  rw [addRuntime]
  refine .bind (along_contextAt context) fun c => ?_
  cases c.config.profile with
  | false =>
    simp only [Bool.false_eq_true, if_false]
    exact fun s => (hlog _ _).after (Pervasive.newRuntime context s)
  | true =>
    simp only [if_true]
    -- the runtime is there before the end of the installation is marked
    refine .bind (along_markTimeline _ _ _) fun _ => fun s => ?_
    exact (hmark _ _ _).after (Pervasive.newRuntime context s)

theorem along_takeRecorded (i : Nat) : Along R (takeRecorded i) :=
  .bind (along_runtimeAt i) fun _ =>
    .bind (along_modifyRuntime _ (fun _ => rfl) fun _ => rfl) fun _ => .pure _

theorem along_answerScript {α : Type} (i : Nat) (shown : α → Json)
    (outcome : Except ScriptError α) : Along R (answerScript i shown outcome) := by
  refine .bind (along_takeRecorded i) fun recorded => ?_
  cases outcome <;> exact .pure _

theorem along_callListener {r : Realm} (hr : r.Keeps R) (f : Callable) (e : ModuleEvent) :
    Along R (callListener r f e) := by
  refine .bind (hr.call f _) fun outcome => ?_
  cases outcome with
  | ok _ => exact .pure _
  | error thrown => exact .bind (along_ofThrown hr.call thrown) fun _ => .pure _

section Reports

variable {R : Session → Session → Prop} [Reporting R]

theorem alongAmong_script {r : Realm} (hr : r.Keeps R) (context : Nat) :
    AlongAmong R (scriptSurroundings r context) where
  call := along_callListener hr
  report := along_reportError hr.perform r.context
  log _ hl := along_log hl
  unlink s := Pervasive.runtime r.runtime _ s rfl (.single (.clear _))

section Performer

variable {p : Performer} (hp : ∀ step, Along R (p step))
include hp

/-- What follows on the realm of a runtime may count on its being lawful. -/
theorem along_realmOf_bind {α : Type} (i : Nat) {f : Realm → SessionM α}
    (hf : ∀ r : Realm, r.Keeps R → Along R (f r)) : Along R (realmOf p i >>= f) := by
  rw [realmOf]
  rw [bind_assoc]
  refine .bind (along_runtimeAt i) fun runtime => ?_
  rw [bind_assoc]
  refine .bind (along_contextAt _) fun c => ?_
  rw [pure_bind]
  exact hf _ (Realm.keeps_outermost hp i c)

theorem along_dispatchScript (i : Nat) (module : String) (event extra : Option String) :
    Along R (dispatchScript p i module event extra) := by
  refine along_realmOf_bind hp i fun r hr => .bind (along_runtimeAt i) fun runtime => ?_
  exact (alongAmong_script hr _).dispatch _ _ _

theorem along_performScript (a : ScriptAction) : Along R (performScript p a) := by
  cases a with
  | new id context =>
    refine along_withObject _ _ fun c => .bind (along_contextAt c) fun _ => ?_
    split
    · exact .pure _
    · exact .bind (along_addRuntime c) fun _ => .bind (along_bind _ _) fun _ => .pure _
  | listeners context =>
    exact along_withObject _ _ fun c => .bind (along_contextAt c) fun _ => .pure _
  | eval on code =>
    refine along_withObject _ _ fun i => along_realmOf_bind hp i fun r hr => ?_
    exact .bind (Realm.along_evaluate hr code) fun _ => along_answerScript i _ _
  | exec on code =>
    refine along_withObject _ _ fun i => along_realmOf_bind hp i fun r hr => ?_
    exact .bind (Realm.along_evaluate hr code) fun _ => along_answerScript i _ _
  | script on module code =>
    refine along_withObject _ _ fun i => along_realmOf_bind hp i fun r hr => ?_
    exact .bind (Realm.along_evaluateModule hr module code) fun _ => along_answerScript i _ _
  | compile on module code keep =>
    refine along_withObject _ _ fun i => along_realmOf_bind hp i fun r hr => ?_
    refine .bind (Realm.along_declareModule hr module code) fun outcome => ?_
    cases outcome with
    | ok code => exact .bind (along_bind _ _) fun _ => .pure _
    | error e => exact along_answerScript i _ _
  | load on program =>
    refine along_withObject _ _ fun i => along_withObject _ _ fun code => ?_
    refine along_realmOf_bind hp i fun r hr => ?_
    exact .bind (Realm.along_runModule hr code) fun _ => along_answerScript i _ _
  | event on module event extra =>
    refine along_withObject _ _ fun i => ?_
    refine .bind (along_dispatchScript hp i _ _ _) fun outcome => ?_
    refine .bind (along_takeRecorded i) fun recorded => ?_
    cases outcome <;> exact .pure _
  | jobs on =>
    refine along_withObject _ _ fun i => along_realmOf_bind hp i fun r hr => ?_
    refine .bind (Realm.along_runJobs hr _) fun outcome => ?_
    exact .bind (Realm.along_reported hr outcome) fun _ => along_answerScript i _ _
  | count on =>
    refine along_withObject _ _ fun i => .bind (along_runtimeAt i) fun runtime => ?_
    exact .bind (along_contextAt _) fun _ => .pure _

/-! ### Steps -/

theorem along_performAction (a : Action Step) : Along R (performAction p a) := by
  cases a with
  | advance micros => exact .bind (.unseen fun _ => rfl) fun _ => .pure _
  | drop on => exact .bind (along_dropName on) fun _ => .pure _
  | describe on => exact along_performDescribe on
  | atoms a => exact along_performAtoms a
  | queue a => exact along_performQueue hp a
  | timeline a => exact along_performTimeline a
  | gate a => exact along_performGate a
  | services a => exact along_performServices hp a
  | context a => exact along_performContext hp a
  | registry a => exact along_performRegistry a
  | style a => exact along_performStyle hp a
  | listeners a => exact along_performListeners hp a
  | script a => exact along_performScript hp a

end Performer

/-- **Whatever a session performs**, the relation holds along it. -/
theorem along_perform (depth : Nat) (step : Step) : Along R (perform depth step) := by
  induction depth generalizing step with
  | zero => exact .pure _
  -- whoever reacts to the step performs steps of his own, one level deeper
  | succ depth ih => exact along_workingOn _ (along_performAction ih _)

end Reports

end ScriptHost.Session
