/-
Errors of scripts are reported once.

Code that is evaluated comes to an end of its own (`Ending`): it is completed, it has thrown, or it
could not be run to an end.  What an evaluation makes of that comes afterwards.  If the code was
completed, nothing; otherwise the error is told from what was thrown, is reported on the error
channel of the context, and is returned.

* `Realm.evaluation_eq` — on every way through an evaluation, that is all there is to it;
* `Realm.ofThrown_fault` — a fault that a script has not caught keeps its class and its message;
* `reported_reportError` — a report is logged, and reaches the host exactly if the gate has captured
  the thread of the caller and there is somebody to be told;
* `reports_conclude` — unless the host reports errors itself when it is called, there is one report
  more if the evaluation failed, and none if it did not, whatever the script has caught on the way;
* `evaluation_reports` — all of this for the scripts that a session evaluates.

Design notes: to find the text of a thrown value may run functions of the script, so there is a state
between the end of the code and the report.  Nothing is run to find out about a fault.  A binding
raises a fault as `Realm.thrown` says, with as much of its message as passes (`Text.clip`); whatever
message it was raised with is the one that is reported and returned, the whole one if it passes.
-/
import ScriptHost.Proofs.Gate.Entering
import ScriptHost.Proofs.Session.Effects

namespace ScriptHost.Session

open Script (Value Stmt ScriptError ErrorClass)

/-! ### Reports -/

/-- An error has been reported, up to the place where the host reacts. -/
def reported (s : Session) (c : Context) (text : String) : Session :=
  approach c.gate .onJsError c.id [.text text] (log (.scriptError c.id text) s).2

/-- From one state to the other, a text has been reported once on the error channel of a context, by
a caller on that thread, and nothing else has been done but what the host does when it is told. -/
structure Reported (p : Performer) (c : Context) (thread : ThreadId) (text : String)
    (s t : Session) : Prop where
  visible : ∃ reaction, t.effects.toList = s.effects.toList ++
    .log (.scriptError c.id text) :: s.entering c.gate .onJsError c.id [.text text] ++ reaction
  reached : s.Reaches c.gate thread .onJsError ↔
    ∃ name, .host name c.id [.text text] ∈ s.entering c.gate .onJsError c.id [.text text]
  told : s.Reaches c.gate thread .onJsError → ∃ i, t = (react p i (s.reported c text)).2
  untold : ¬ s.Reaches c.gate thread .onJsError → t = s.reported c text

/-- How often errors have been reported. -/
def reports (s : Session) : Nat := s.effects.toList.countP Effect.isReport

section Report

variable {p : Performer} {c : Context} {text : String} {s t : Session}

theorem reportError_snd (p : Performer) (c : Context) (text : String) (s : Session) :
    (reportError p c text s).2 =
      (callServices p c.gate .onJsError c.id [.text text] (log (.scriptError c.id text) s).2).2 := rfl

theorem effects_reported (s : Session) (c : Context) (text : String) :
    (s.reported c text).effects.toList = s.effects.toList ++
      .log (.scriptError c.id text) :: s.entering c.gate .onJsError c.id [.text text] := by
  show ((s.effects.push _) ++ (_ : List Effect)).toList = _
  rw [Array.toList_appendList, Array.toList_push, List.append_assoc]
  rfl

theorem reported_reportError (hp : ∀ step, Along Grows (p step)) (c : Context) (text : String)
    (s : Session) : Reported p c s.thread text s (reportError p c text s).2 := by
  -- the log that comes first makes no difference to the call
  have hreaches : s.Reaches c.gate s.thread .onJsError ↔
      (log (.scriptError c.id text) s).2.Reaches c.gate s.thread .onJsError := Iff.rfl
  refine ⟨?_, reaches_iff, fun h => ?_, fun h => ?_⟩
  · rw [reportError_snd]
    by_cases h : s.Reaches c.gate s.thread .onJsError
    · obtain ⟨i, hi⟩ := callServices_of_reaches (hreaches.mp h) p c.id [.text text]
      obtain ⟨-, reaction, heffects, -⟩ := along_react hp i (s.reported c text)
      refine ⟨reaction, ?_⟩
      rw [hi, ← effects_reported]
      exact heffects
    · refine ⟨[], ?_⟩
      rw [callServices_of_not_reaches (mt hreaches.mpr h), List.append_nil, ← effects_reported]
      rfl
  · exact callServices_of_reaches (hreaches.mp h) p c.id [.text text]
  · exact callServices_of_not_reaches (mt hreaches.mpr h) p c.id [.text text]

theorem Adds.reports_eq (h : Discreet s t) : t.reports = s.reports := by
  obtain ⟨-, added, heffects, hadded⟩ := h
  have hnone : added.countP Effect.isReport = 0 :=
    List.countP_eq_zero.mpr fun e he => by simp [hadded e he]
  rw [reports, heffects, List.countP_append, hnone, Nat.add_zero, reports]

/-- A host that does not report errors itself makes no difference to their number. -/
theorem reports_reportError (hp : ∀ step, Along Discreet (p step)) (c : Context) (text : String)
    (s : Session) : (reportError p c text s).2.reports = s.reports + 1 := by
  have hcall : Along Discreet (callServices p c.gate .onJsError c.id [.text text]) :=
    .bind (along_services _) fun set => along_callService hp set _ _ _
  have hlog : (log (.scriptError c.id text) s).2.reports = s.reports + 1 := by
    show (s.effects.push _).toList.countP Effect.isReport = _
    rw [Array.toList_push, List.countP_append]
    rfl
  rw [reportError_snd, (hcall _).reports_eq, hlog]

end Report

/-! ### Evaluations -/

/-- How code that was evaluated came to an end. -/
inductive Ending (α : Type) where
  | completed (a : α)
  | threw (v : Value)
  /-- It could not be run, or it waits for what will not come. -/
  | failed (e : ScriptError)

/-- Whether code was completed or has thrown. -/
def Ending.of {α β : Type} (f : α → β) : Except Value α → Ending β
  | .ok a => .completed (f a)
  | .error thrown => .threw thrown

/-- Something to be evaluated: a script for its value, or a module under a name. -/
inductive Evaluation : Type → Type
  | script (code : List Stmt) : Evaluation Value
  | module (name : String) (code : List Stmt) : Evaluation Unit

namespace Realm

variable (r : Realm)

/-- Runs a module with waits at its top level to its end. -/
def endAsync (code : List Stmt) : SessionM (Ending Unit) := do
  let module ← r.addModule
  r.advanceModule module code
  match ← r.finishModule module jobLimit with
  | some none => return .completed ()
  | some (some thrown) => return .threw thrown
  | none => return .failed deadlock

/-- Runs a module to its end. -/
def endModule (code : List Stmt) : SessionM (Ending Unit) := do
  if code.any Stmt.isAwait then r.endAsync code
  else return .of (fun _ => ()) (← (r.run code).run)

/-- Brings what is evaluated to its end. -/
def toEnd {α : Type} : Evaluation α → SessionM (Ending α)
  | .script code => do
    return .of id (← (do r.run (← Script.settled (parsed code)) : ScriptM Value).run)
  | .module name code =>
    match nameError? name, parsed code with
    | some e, _ => return .failed e
    | none, .error thrown => return .threw thrown
    | none, .ok code => r.endModule code

/-- What an evaluation makes of an end. -/
def conclude {α : Type} : Ending α → SessionM (Except ScriptError α)
  | .completed a => return .ok a
  | .threw thrown => return .error (← r.reportThrown thrown)
  | .failed e => do
    reportError r.perform r.context e.message
    return .error e

/-- Evaluates. -/
def evaluation {α : Type} : Evaluation α → SessionM (Except ScriptError α)
  | .script code => r.evaluate code
  | .module name code => r.evaluateModule name code

theorem reported_eq {α β : Type} (f : α → β) (outcome : Except Value α) :
    (do return (← r.reported outcome).map f) = r.conclude (.of f outcome) := by
  cases outcome <;> rfl

theorem runAsync_eq (code : List Stmt) : r.runAsync code = r.endAsync code >>= r.conclude := by
  rw [runAsync, endAsync, bind_assoc]
  refine bind_congr fun module => ?_
  rw [bind_assoc]
  refine bind_congr fun _ => ?_
  rw [bind_assoc]
  refine bind_congr fun outcome => ?_
  cases outcome with
  | none => rfl
  | some settled => cases settled <;> rfl

theorem runModule_eq (code : List Stmt) : r.runModule code = r.endModule code >>= r.conclude := by
  rw [runModule, endModule]
  split
  · exact r.runAsync_eq code
  · rw [bind_assoc]
    exact bind_congr fun outcome => r.reported_eq (fun _ => ()) outcome

/-- Every evaluation brings the code to its end, and then makes something of that. -/
theorem evaluation_eq {α : Type} (ev : Evaluation α) :
    r.evaluation ev = r.toEnd ev >>= r.conclude := by
  cases ev with
  | script code =>
    rw [evaluation, evaluate, toEnd, bind_assoc]
    refine bind_congr fun outcome => ?_
    cases outcome <;> rfl
  | module name code =>
    rw [evaluation, evaluateModule, declareModule, toEnd]
    cases nameError? name with
    | some e => rfl
    | none =>
      cases parsed code with
      | error thrown => rfl
      | ok code => exact r.runModule_eq code

/-- What holds along the functions that are called holds up to the end. -/
theorem along_toEnd {R : Session → Session → Prop} [Pervasive R] {r : Realm} (hr : r.Keeps R)
    {α : Type} (ev : Evaluation α) : Along R (r.toEnd ev) := by
  have hasync : ∀ code, Along R (r.endAsync code) := fun code => by
    rw [endAsync]
    refine .bind along_addModule fun module => .bind (along_advanceModule hr module code) fun _ => ?_
    refine .bind (along_finishModule hr module _) fun outcome => ?_
    split <;> exact .pure _
  cases ev with
  | script code =>
    exact .bind (.run_bind (along_settled _) fun code => along_run hr code) fun _ => .pure _
  | module name code =>
    rw [toEnd]
    split
    · exact .pure _
    · exact .pure _
    · rw [endModule]
      split
      · exact hasync _
      · exact .bind (along_run hr _) fun _ => .pure _

/-- The class of error that the host is told of for a fault. -/
def toldClass : FaultKind → ErrorClass
  | .reference => .reference
  | .type => .typeError
  | .range => .range
  | .internal => .internal

/-- Of a fault, the host is told the class and the message; nothing is run to find them out. -/
theorem ofThrown_fault (call : Script.Invoke SessionM) (f : Fault) (message : String)
    (s : Session) : ScriptError.ofThrown call (.error (errorClass f.kind) message) s =
      (⟨toldClass f.kind, message⟩, s) := by
  cases f.kind <;> rfl

end Realm

/-! ### Results -/

/-- What comes of an evaluation that began in `s`, in a realm whose code ended in `t`. -/
structure Concluded {α : Type} (r : Realm) (s : Session) (ending : Ending α) (t : Session)
    (outcome : Except ScriptError α) (u : Session) : Prop where
  /-- What the code did remains, on whichever way it ended. -/
  remains : Grows s t ∧ Grows t u
  completed : ∀ a, ending = .completed a → outcome = .ok a ∧ u = t
  threw : ∀ thrown, ending = .threw thrown → ∃ e v,
    ScriptError.ofThrown r.call thrown t = (e, v) ∧ Grows t v ∧
      outcome = .error e ∧ Reported r.perform r.context s.thread e.message v u
  failed : ∀ e, ending = .failed e →
    outcome = .error e ∧ Reported r.perform r.context s.thread e.message t u
  /-- A fault keeps its class and the message that it was raised with, and is reported where the
  code has ended. -/
  fault : ∀ (f : Fault) message, ending = .threw (.error (Realm.errorClass f.kind) message) →
    outcome = .error ⟨Realm.toldClass f.kind, message⟩ ∧
      Reported r.perform r.context s.thread (ScriptError.message ⟨Realm.toldClass f.kind, message⟩)
        t u
  /-- So does the fault of a binding, whose message is its own where that passes. -/
  thrown : ∀ f : Fault, ending = .threw (Realm.thrown f) → Text.clip f.message = f.message →
    outcome = .error ⟨Realm.toldClass f.kind, f.message⟩ ∧
      Reported r.perform r.context s.thread
        (ScriptError.message ⟨Realm.toldClass f.kind, f.message⟩) t u

section Results

variable {α : Type} {r : Realm}

theorem concluded_conclude (hr : r.Keeps Grows) {s t : Session} (h : Grows s t)
    (ending : Ending α) :
    Concluded r s ending t (r.conclude ending t).1 (r.conclude ending t).2 := by
  have hreport : ∀ (e : ScriptError) {v : Session}, Grows t v →
      Reported r.perform r.context s.thread e.message v
        (reportError r.perform r.context e.message v).2 := by
    intro e v hv
    have hreported := reported_reportError hr.perform r.context e.message v
    rwa [hv.thread, h.thread] at hreported
  have hgrows : ∀ (e : ScriptError) {v : Session}, Grows t v →
      Grows t (reportError r.perform r.context e.message v).2 :=
    fun e v hv => hv.trans (along_reportError hr.perform r.context e.message v)
  cases ending with
  | completed a =>
    refine ⟨⟨h, .refl t⟩, fun a' ha => ?_, nofun, nofun, nofun, nofun⟩
    cases ha
    exact ⟨rfl, rfl⟩
  | failed e =>
    refine ⟨⟨h, hgrows e (.refl t)⟩, nofun, nofun, fun e' he => ?_, nofun, nofun⟩
    cases he
    exact ⟨rfl, hreport e (.refl t)⟩
  | threw thrown =>
    have hv : Grows t (ScriptError.ofThrown r.call thrown t).2 := along_ofThrown hr.call thrown t
    have hfault : ∀ (f : Fault) message, thrown = .error (Realm.errorClass f.kind) message →
        (r.conclude (.threw thrown : Ending α) t).1 = .error ⟨Realm.toldClass f.kind, message⟩ ∧
          Reported r.perform r.context s.thread
            (ScriptError.message ⟨Realm.toldClass f.kind, message⟩) t
            (r.conclude (.threw thrown : Ending α) t).2 := by
      rintro f message rfl
      have htold := Realm.ofThrown_fault r.call f message t
      have hconclude : r.conclude (.threw (.error (Realm.errorClass f.kind) message) : Ending α) t =
          (.error (ScriptError.ofThrown r.call (.error (Realm.errorClass f.kind) message) t).1,
            (reportError r.perform r.context
              (ScriptError.ofThrown r.call (.error (Realm.errorClass f.kind) message) t).1.message
              (ScriptError.ofThrown r.call (.error (Realm.errorClass f.kind) message) t).2).2) := rfl
      rw [hconclude, htold]
      exact ⟨rfl, hreport _ (.refl t)⟩
    refine ⟨⟨h, hgrows _ hv⟩, nofun, fun thrown' hthrown => ?_, nofun, fun f message hf => ?_,
      fun f hf hclip => ?_⟩
    · cases hthrown
      exact ⟨_, _, rfl, hv, rfl, hreport _ hv⟩
    · exact hfault f message (Ending.threw.inj hf)
    · exact hfault f f.message ((Ending.threw.inj hf).trans (congrArg _ hclip))

/-- How many reports an outcome stands for. -/
def failures : Except ScriptError α → Nat
  | .ok _ => 0
  | .error _ => 1

theorem reports_conclude (hr : r.Keeps Discreet) (ending : Ending α) (t : Session) :
    (r.conclude ending t).2.reports = t.reports + failures (r.conclude ending t).1 := by
  cases ending with
  | completed a => rfl
  | failed e => exact reports_reportError hr.perform r.context e.message t
  | threw thrown =>
    have hv : Discreet t (ScriptError.ofThrown r.call thrown t).2 :=
      along_ofThrown hr.call thrown t
    rw [← hv.reports_eq]
    exact reports_reportError hr.perform r.context _ _

end Results

/-- **Errors of scripts are reported once.**  Whatever is evaluated in the realm of a runtime, what
the code did remains.  If it was completed, the evaluation does nothing more; otherwise one error is
reported after it, on the thread of the caller and with the text of the error that is returned, and
a fault keeps its class and its message.  In particular, as long as the host reports none itself
when it is called, there is one report more if the evaluation failed, and none if it did not. -/
theorem evaluation_reports {α : Type} (ev : Evaluation α) (depth runtime : Nat) (c : Context)
    (s : Session) :
    (let r := Realm.outermost (perform depth) runtime c
     Concluded r s (r.toEnd ev s).1 (r.toEnd ev s).2 (r.evaluation ev s).1 (r.evaluation ev s).2) ∧
    ∀ p : Performer, (∀ step, Along Discreet (p step)) →
      let r := Realm.outermost p runtime c
      (r.evaluation ev s).2.reports = s.reports + failures (r.evaluation ev s).1 := by
  refine ⟨?_, fun p hp => ?_⟩
  · have hr := Realm.keeps_outermost (R := Grows) (along_perform depth) runtime c
    dsimp only
    rw [Realm.evaluation_eq, bind_apply]
    exact concluded_conclude hr (Realm.along_toEnd hr ev s) _
  · have hr := Realm.keeps_outermost (R := Discreet) hp runtime c
    dsimp only
    rw [Realm.evaluation_eq, bind_apply, reports_conclude hr]
    rw [(Realm.along_toEnd hr ev s).reports_eq]

/-- A script that catches one fault of the timeline, and not the next one. -/
def lostMark : List Stmt :=
  [.perform (.call (.member (.name "performance") "mark") []) none false,
    .perform (.call (.member (.name "performance") "measure") [.text "m", .text "lost"]) none true]

def hostedContext : Context :=
  { id := 7, config := {}, gate := 0, queue := 0, timeline := 0, table := 0, names := 0 }

/-- A session with a runtime, whose host is told of errors on its thread. -/
def hostedSession : Session where
  gates := #[{ captured := some (1, [(.onJsError, 0)]) }]
  entryPoints := #[⟨.onJsError, .fixed .void, 0⟩]
  timelines := #[{
    timeline := { context := 7, origin := .zero }
    clock := .system 0
    source := none }]
  contexts := #[hostedContext]
  runtimes := #[{ context := 0 }]

/-- The fault that is not caught is returned, and the host is told of it once. -/
theorem lostMark_reports :
    let message := "Failed to execute 'measure' on 'Performance': The mark lost does not exist."
    let r := Realm.outermost (perform 1) 0 hostedContext
    (r.evaluation (.script lostMark) hostedSession).1 = .error ⟨.reference, message⟩ ∧
      (∃ name, .host name 7 [.text ("Reference error: " ++ message)] ∈
        (r.evaluation (.script lostMark) hostedSession).2.effects.toList) ∧
      ((Realm.outermost (fun _ => return .done) 0 hostedContext).evaluation (.script lostMark)
        hostedSession).2.reports = 1 := by
  intro message r
  obtain ⟨hconcluded, hcount⟩ := evaluation_reports (.script lostMark) 1 0 hostedContext hostedSession
  obtain ⟨houtcome, hreported⟩ := hconcluded.thrown (.markNotFound "measure" "lost") rfl
    (by decide +kernel)
  refine ⟨houtcome, ?_, hcount _ fun _ => .pure _⟩
  obtain ⟨name, hname⟩ := hreported.reached.mp ⟨_, _, 0, _, rfl, rfl, rfl, rfl⟩
  obtain ⟨reaction, hvisible⟩ := hreported.visible
  refine ⟨name, ?_⟩
  rw [hvisible]
  exact List.mem_append_left _ (List.mem_append_right _ (List.mem_cons_of_mem _ hname))

end ScriptHost.Session
