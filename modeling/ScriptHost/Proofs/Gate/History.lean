/-
Histories of a gate.

Registrations, captures and questions for services come in any order, and sets of services are
kept and used at any later time.  A `GateRun` follows what is asked of one gate of a session, and
what comes back:

* `GateRun.gate` — the first capture and what was registered before it determine the gate;
* `GateRun.answers` — what every call on the gate answered;
* `callService_live`, `callService_missing`, `callService_empty` — what a call does through a set;
* `GateRun.gatekeeping` — all of it together, for sets that were handed out at any time.

Design notes: `captor`, `early` and `offered` look at who asked for what and never at an answer, so
they say what should have happened without taking it from the gate.  Runs grow at their ends, since
what a call answers depends on what came before it.
-/
import Mathlib.Data.List.Induction
import Mathlib.Data.List.Nodup
import Mathlib.Data.List.TakeWhile
import ScriptHost.Proofs.Session.Moves

namespace ScriptHost

/-! ### Tables -/

namespace ServiceTable

variable {F : Type}

theorem entry?_put (table : ServiceTable F) (s t : Service) (f : F) :
    entry? (table.put s f) t = if s = t then some f else table.entry? t := by
  induction table with
  | nil =>
    by_cases h : s = t
    · simp [put, entry?, h]
    · simp [put, entry?, h, Ne.symm h]
  | cons first rest ih =>
    obtain ⟨t', g⟩ := first
    simp only [put, entry?] at ih ⊢
    by_cases hput : t' = s
    · by_cases h : s = t
      · simp [hput, h]
      · simp [hput, h, List.lookup_cons, beq_eq_false_iff_ne.mpr (Ne.symm h)]
    · by_cases h : t = t'
      · simp [hput, h, Ne.symm hput]
      · rw [if_neg hput, List.lookup_cons, beq_eq_false_iff_ne.mpr h, ih, List.lookup_cons,
          beq_eq_false_iff_ne.mpr h]

theorem map_fst_put (table : ServiceTable F) (s : Service) (f : F) :
    (table.put s f).map Prod.fst =
      if s ∈ table.map Prod.fst then table.map Prod.fst else table.map Prod.fst ++ [s] := by
  induction table with
  | nil => rfl
  | cons first rest ih =>
    obtain ⟨t, g⟩ := first
    by_cases hput : t = s
    · simp [put, hput]
    · simp only [put, if_neg hput, List.map_cons, ih, List.mem_cons, Ne.symm hput, false_or]
      split <;> rfl

/-- A table names each service once. -/
theorem nodup_put {table : ServiceTable F} (h : (table.map Prod.fst).Nodup) (s : Service) (f : F) :
    ((table.put s f).map Prod.fst).Nodup := by
  rw [map_fst_put]
  split
  · exact h
  next hs => exact List.concat_eq_append ▸ h.concat hs

end ServiceTable

namespace Session

/-! ### Calls on a gate -/

/-- A call on a gate, with what came back.  An entry point is registered by its place. -/
inductive GateEvent where
  | register (service : Service) (place : Nat) (point : EntryPoint) (answer : Answer)
  | capture (t : ThreadId) (answer : Answer)
  | ask (t : ThreadId) (set : ServiceSet Nat)

namespace GateEvent

/-- The thread that was to be captured. -/
def captor? : GateEvent → Option ThreadId
  | capture t _ => some t
  | _ => none

/-- The entry point that was to be registered for a service. -/
def entryFor? (service : Service) : GateEvent → Option (Nat × EntryPoint)
  | register s place point _ => if s = service then some (place, point) else none
  | _ => none

end GateEvent

/-- The thread of the first capture. -/
def captor (h : List GateEvent) : Option ThreadId := h.findSome? (·.captor?)

/-- What came before the first capture. -/
def early (h : List GateEvent) : List GateEvent := h.takeWhile (·.captor?.isNone)

/-- The entry point that was registered for a service last before the first capture. -/
def offered (h : List GateEvent) (service : Service) : Option (Nat × EntryPoint) :=
  (early h).reverse.findSome? (·.entryFor? service)

/-- Some capture has succeeded. -/
def Captured (h : List GateEvent) : Prop := ∃ t, .capture t .done ∈ h

/-- One call on a gate. -/
inductive GateStep (i : Nat) : Session → GateEvent → Session → Prop
  | register {s : Session} (service : Service) (place : Nat) {point : EntryPoint}
      (hpoint : s.entryPoints[place]? = some point) :
      GateStep i s (.register service place point (registerService i service place s).1)
        (registerService i service place s).2
  | capture (t : ThreadId) (s : Session) :
      GateStep i s (.capture t (captureThread i t s).1) (captureThread i t s).2
  | ask (t : ThreadId) (s : Session) :
      GateStep i s (.ask t (servicesFor i t s).1) (servicesFor i t s).2

/-- A run of a session, with what happened to one of its gates on the way.  Between the calls
anything may happen that leaves the gate and the entry points of the host as they are. -/
inductive GateRun (i : Nat) (s : Session) : List GateEvent → Session → Prop
  | nil : GateRun i s [] s
  | elsewhere {h : List GateEvent} {t u : Session} (run : GateRun i s h t)
      (hgate : u.gates[i]? = t.gates[i]?)
      (hpoints : ∀ (k : Nat) (point : EntryPoint),
        t.entryPoints[k]? = some point → u.entryPoints[k]? = some point) :
      GateRun i s h u
  | call {h : List GateEvent} {e : GateEvent} {t u : Session} (run : GateRun i s h t)
      (step : GateStep i t e u) : GateRun i s (h ++ [e]) u

/-! ### What the history determines -/

/-- What a call adds to the table of a gate that has not captured a thread. -/
def GateEvent.enter (table : ServiceTable Nat) : GateEvent → ServiceTable Nat
  | register service place _ _ => table.put service place
  | _ => table

/-- The table that is there to be handed out. -/
def tableOf (h : List GateEvent) : ServiceTable Nat := (early h).foldl GateEvent.enter []

/-- What a new gate is after a history. -/
def gateAfter (h : List GateEvent) : Gate Nat :=
  match captor h with
  | none => { pending := tableOf h }
  | some t => { captured := some (t, tableOf h) }

section Histories

variable {h : List GateEvent} {e : GateEvent} {t : ThreadId}

theorem captor_append (h h' : List GateEvent) : captor (h ++ h') = (captor h).or (captor h') :=
  List.findSome?_append

theorem captor_singleton (e : GateEvent) : captor [e] = e.captor? := by
  rw [captor, List.findSome?_singleton]

theorem early_of_captor_none (hc : captor h = none) : early h = h := by
  rw [early, List.takeWhile_eq_self_iff]
  intro e he
  rw [List.findSome?_eq_none_iff.mp hc e he]
  rfl

/-- After a capture, nothing is early. -/
theorem early_append_of_captor (hc : captor h = some t) (h' : List GateEvent) :
    early (h ++ h') = early h := by
  induction h with
  | nil => exact absurd hc (by simp [captor])
  | cons e h ih =>
    cases he : e.captor? with
    | none =>
      rw [captor, List.findSome?_cons, he] at hc
      simp only [early, List.cons_append, List.takeWhile_cons, he, Option.isNone_none, if_true]
      exact congrArg (e :: ·) (ih hc)
    | some t' => simp [early, he]

theorem tableOf_append_of_captor (hc : captor h = some t) (h' : List GateEvent) :
    tableOf (h ++ h') = tableOf h := by
  rw [tableOf, early_append_of_captor hc, tableOf]

theorem tableOf_concat_of_none (hc : captor h = none) (e : GateEvent) :
    tableOf (h ++ [e]) = e.enter (tableOf h) := by
  have hearly : early (h ++ [e]) = h ++ early [e] := by
    rw [early, List.takeWhile_append_of_pos fun e he => ?_]
    · rfl
    · rw [List.findSome?_eq_none_iff.mp hc e he]
      rfl
  rw [tableOf, hearly, List.foldl_append, tableOf, early_of_captor_none hc]
  cases e <;> rfl

theorem gateAfter_of_none (hc : captor h = none) : gateAfter h = { pending := tableOf h } := by
  rw [gateAfter, hc]

theorem gateAfter_of_captor (hc : captor h = some t) :
    gateAfter h = { captured := some (t, tableOf h) } := by
  rw [gateAfter, hc]

theorem gateAfter_concat_of_captor (hc : captor h = some t) (e : GateEvent) :
    gateAfter (h ++ [e]) = gateAfter h := by
  have hc' : captor (h ++ [e]) = some t := by rw [captor_append, hc, Option.some_or]
  rw [gateAfter_of_captor hc', gateAfter_of_captor hc, tableOf_append_of_captor hc]

theorem entry?_foldl_enter (h : List GateEvent) (service : Service) :
    ServiceTable.entry? (h.foldl GateEvent.enter []) service =
      (h.reverse.findSome? (·.entryFor? service)).map Prod.fst := by
  induction h using List.reverseRecOn with
  | nil => rfl
  | append_singleton h e ih =>
    rw [List.foldl_append, List.reverse_append, List.reverse_singleton, List.singleton_append,
      List.findSome?_cons]
    cases e with
    | register s place point answer =>
      show ServiceTable.entry? (ServiceTable.put s place _) service = _
      rw [ServiceTable.entry?_put, ih, GateEvent.entryFor?]
      split <;> rfl
    | capture t answer => exact ih
    | ask t set => exact ih

/-- The table has what was offered, and nothing else. -/
theorem entry?_tableOf (h : List GateEvent) (service : Service) :
    ServiceTable.entry? (tableOf h) service = (offered h service).map Prod.fst :=
  entry?_foldl_enter (early h) service

theorem nodup_foldl_enter (h : List GateEvent) {table : ServiceTable Nat}
    (htable : (table.map Prod.fst).Nodup) :
    ((h.foldl GateEvent.enter table).map Prod.fst).Nodup := by
  induction h generalizing table with
  | nil => exact htable
  | cons e h ih =>
    refine ih ?_
    cases e with
    | register service place point answer => exact ServiceTable.nodup_put htable service place
    | capture t answer => exact htable
    | ask t set => exact htable

theorem nodup_tableOf (h : List GateEvent) : ((tableOf h).map Prod.fst).Nodup :=
  nodup_foldl_enter (early h) List.nodup_nil

/-- What is offered has been registered. -/
theorem mem_of_offered {service : Service} {place : Nat} {point : EntryPoint}
    (ho : offered h service = some (place, point)) :
    ∃ answer, .register service place point answer ∈ h := by
  obtain ⟨e, he, hfor⟩ := List.exists_of_findSome?_eq_some ho
  have hmem : e ∈ h := (List.takeWhile_sublist _).subset (List.mem_reverse.mp he)
  cases e with
  | register s place' point' answer =>
    rw [GateEvent.entryFor?] at hfor
    split at hfor
    next hs =>
      obtain ⟨rfl, rfl⟩ := Prod.mk.inj (Option.some.inj hfor)
      exact ⟨answer, hs ▸ hmem⟩
    next => exact absurd hfor (by simp)
  | capture t answer => exact absurd hfor (by simp [GateEvent.entryFor?])
  | ask t set => exact absurd hfor (by simp [GateEvent.entryFor?])

end Histories

/-! ### What a call on a gate does -/

section Calls

variable {i : Nat} {s : Session} {g : Gate Nat} (hg : s.gates[i]? = some g)
include hg

theorem gateAt_apply : gateAt i s = (g, s) := by
  show (s.gates[i]?.getD default, s) = _
  rw [hg, Option.getD_some]

theorem registerService_of_open (hopen : g.captured = none) (service : Service) (place : Nat) :
    registerService i service place s = (.done,
      { s with
        gates := s.gates.setIfInBounds i { g with pending := g.pending.put service place }
        effects := if (g.pending.entry? service).isSome
          then s.effects.push (.log (.serviceReplaced service)) else s.effects }) := by
  rw [registerService, bind_apply, gateAt_apply hg, Gate.register_eq_ok_iff.mpr ⟨hopen, rfl, rfl⟩]
  dsimp only
  cases (g.pending.entry? service).isSome <;> rfl

/-- After a capture, a registration is refused, and nothing but the log tells of it. -/
theorem registerService_of_captured (hclosed : g.captured.isSome) (service : Service)
    (place : Nat) : registerService i service place s =
      (.fault (.registrationClosed service), (log (.registrationRefused service) s).2) := by
  rw [registerService, bind_apply, gateAt_apply hg, Gate.register, if_pos hclosed]
  rfl

theorem captureThread_of_open (hopen : g.captured = none) (t : ThreadId) :
    captureThread i t s = (.done,
      { s with
        effects := s.effects.push (.log (.hostCaptured g.pending.length))
        gates := s.gates.setIfInBounds i { captured := some (t, g.pending) } }) := by
  rw [captureThread, bind_apply, gateAt_apply hg, Gate.capture_eq_ok_iff.mpr ⟨hopen, rfl⟩]
  rfl

/-- A second capture does nothing at all. -/
theorem captureThread_of_captured (hclosed : g.captured.isSome) (t : ThreadId) :
    captureThread i t s = (.fault .alreadyCaptured, s) := by
  rw [captureThread, bind_apply, gateAt_apply hg, Gate.capture, if_pos hclosed]
  rfl

theorem servicesFor_apply (t : ThreadId) : servicesFor i t s = (g.servicesFor t, s) := by
  show (((s.gates[i]?).map fun g => g.servicesFor t).getD .empty, s) = _
  rw [hg]
  rfl

theorem getElem?_setIfInBounds (g' : Gate Nat) : (s.gates.setIfInBounds i g')[i]? = some g' :=
  Array.getElem?_setIfInBounds_self_of_lt (Array.getElem?_eq_some_iff.mp hg).1

end Calls

namespace GateStep

variable {i : Nat} {s u : Session} {h : List GateEvent} {e : GateEvent}

/-- A call replaces the gate or no gate at all, and no entry point. -/
theorem changes (step : GateStep i s e u) : u.entryPoints = s.entryPoints ∧
    (u.gates = s.gates ∨ ∃ g, u.gates = s.gates.setIfInBounds i g) := by
  cases step with
  | register service place hpoint =>
    rw [registerService, bind_apply]
    rcases (gateAt i s).1.register service place with fault | ⟨_ | _, g⟩
    · exact ⟨rfl, Or.inl rfl⟩
    · exact ⟨rfl, Or.inr ⟨g, rfl⟩⟩
    · exact ⟨rfl, Or.inr ⟨g, rfl⟩⟩
  | capture t =>
    rw [captureThread, bind_apply]
    cases (gateAt i s).1.capture t with
    | error fault => exact ⟨rfl, Or.inl rfl⟩
    | ok g => exact ⟨rfl, Or.inr ⟨g, rfl⟩⟩
  | ask t => exact ⟨rfl, Or.inl rfl⟩

/-- A call makes of the gate what its history demands. -/
theorem gate (step : GateStep i s e u) (hg : s.gates[i]? = some (gateAfter h)) :
    u.gates[i]? = some (gateAfter (h ++ [e])) := by
  cases hc : captor h with
  | none =>
    rw [gateAfter_of_none hc] at hg
    have htable := tableOf_concat_of_none hc e
    have hcaptor : captor (h ++ [e]) = e.captor? := by
      rw [captor_append, hc, Option.none_or, captor_singleton]
    cases step with
    | register service place hpoint =>
      rw [gateAfter_of_none hcaptor, htable, registerService_of_open hg rfl]
      exact getElem?_setIfInBounds hg _
    | capture t =>
      rw [gateAfter_of_captor hcaptor, htable, captureThread_of_open hg rfl]
      exact getElem?_setIfInBounds hg _
    | ask t =>
      rw [gateAfter_of_none hcaptor, htable, servicesFor_apply hg]
      exact hg
  | some owner =>
    rw [gateAfter_concat_of_captor hc]
    have hclosed : (gateAfter h).captured.isSome := by
      rw [gateAfter_of_captor hc]
      rfl
    cases step with
    | register service place hpoint =>
      rw [registerService_of_captured hg hclosed]
      exact hg
    | capture t =>
      rw [captureThread_of_captured hg hclosed]
      exact hg
    | ask t =>
      rw [servicesFor_apply hg]
      exact hg

end GateStep

/-! ### What a run does to a gate -/

/-- What a call should answer after a history, if this is the table that is handed out. -/
def GateEvent.Fits (h : List GateEvent) (table : ServiceTable Nat) : GateEvent → Prop
  | register service _ _ answer =>
    (¬ Captured h ∧ answer = .done) ∨
      (Captured h ∧ answer = .fault (.registrationClosed service))
  | capture _ answer =>
    (¬ Captured h ∧ answer = .done) ∨ (Captured h ∧ answer = .fault .alreadyCaptured)
  | ask t set =>
    (.capture t .done ∈ h ∧ set = .live table) ∨ (.capture t .done ∉ h ∧ set = .empty)

namespace GateRun

variable {i : Nat} {s u : Session} {h : List GateEvent}

/-- The gate is what its history demands. -/
theorem gate (hs : s.gates[i]? = some {}) (run : GateRun i s h u) :
    u.gates[i]? = some (gateAfter h) := by
  induction run with
  | nil => exact hs
  | elsewhere _ hgate _ ih => exact hgate.trans ih
  | call _ step ih => exact step.gate ih

/-- What was registered is still there. -/
theorem entryPoint (run : GateRun i s h u) {service : Service} {place : Nat} {point : EntryPoint}
    {answer : Answer} (hmem : .register service place point answer ∈ h) :
    u.entryPoints[place]? = some point := by
  induction run with
  | nil => exact absurd hmem List.not_mem_nil
  | elsewhere _ _ hpoints ih => exact hpoints place point (ih hmem)
  | call _ step ih =>
    rw [step.changes.1]
    rcases List.mem_append.mp hmem with hmem | hmem
    · exact ih hmem
    · obtain rfl := List.mem_singleton.mp hmem
      cases step with
      | register _ _ hpoint => exact hpoint

/-- The first capture is the one that succeeds. -/
theorem captor_eq_some_iff (hs : s.gates[i]? = some {}) (run : GateRun i s h u) {t : ThreadId} :
    captor h = some t ↔ .capture t .done ∈ h := by
  induction run with
  | nil => simp [captor]
  | elsewhere _ _ _ ih => exact ih
  | @call h e _ _ run step ih =>
    have hg := run.gate hs
    rw [captor_append, captor_singleton, List.mem_append, ← ih, List.mem_singleton]
    cases step with
    | register => simp [GateEvent.captor?]
    | ask => simp [GateEvent.captor?]
    | capture t' =>
      cases hc : captor h with
      | none =>
        rw [gateAfter_of_none hc] at hg
        simp [captureThread_of_open hg rfl, GateEvent.captor?, eq_comm]
      | some owner =>
        rw [gateAfter_of_captor hc] at hg
        simp [captureThread_of_captured hg rfl, Answer.done, Answer.of, Answer.fault]

theorem captured_iff (hs : s.gates[i]? = some {}) (run : GateRun i s h u) :
    Captured h ↔ (gateAfter h).captured.isSome := by
  cases hc : captor h with
  | none =>
    rw [gateAfter_of_none hc]
    simp [Captured, ← run.captor_eq_some_iff hs, hc]
  | some t =>
    rw [gateAfter_of_captor hc]
    simp [Captured, ← run.captor_eq_some_iff hs, hc]

/-- A run passes a state at every call. -/
theorem before {h₁ h₂ : List GateEvent} {e : GateEvent} (run : GateRun i s h u)
    (hh : h = h₁ ++ e :: h₂) : ∃ v w, GateRun i s h₁ v ∧ GateStep i v e w := by
  induction run generalizing h₂ with
  | nil => exact absurd hh (by simp)
  | elsewhere _ _ _ ih => exact ih hh
  | @call h e' v w run step ih =>
    -- the call is the last one, or it was made before
    rcases List.eq_nil_or_concat h₂ with rfl | ⟨h₂, last, rfl⟩
    · obtain ⟨rfl, he⟩ := List.append_inj' hh rfl
      obtain rfl := List.singleton_inj.mp he
      exact ⟨v, w, run, step⟩
    · rw [List.concat_eq_append, ← List.cons_append, ← List.append_assoc] at hh
      exact ih (List.append_inj' hh rfl).1

/-- Every call answered as it should, and every live set has the same table. -/
theorem answers (hs : s.gates[i]? = some {}) (run : GateRun i s h u) {h₁ h₂ : List GateEvent}
    {e : GateEvent} (hh : h = h₁ ++ e :: h₂) : e.Fits h₁ (tableOf h) := by
  obtain ⟨v, w, hrun, hstep⟩ := run.before hh
  have hg := hrun.gate hs
  have hcaptured := hrun.captured_iff hs
  cases hstep with
  | register service place hpoint =>
    by_cases hc : Captured h₁
    · refine Or.inr ⟨hc, ?_⟩
      rw [registerService_of_captured hg (hcaptured.mp hc)]
    · refine Or.inl ⟨hc, ?_⟩
      rw [hcaptured, Option.not_isSome_iff_eq_none] at hc
      rw [registerService_of_open hg hc]
  | capture t =>
    by_cases hc : Captured h₁
    · refine Or.inr ⟨hc, ?_⟩
      rw [captureThread_of_captured hg (hcaptured.mp hc)]
    · refine Or.inl ⟨hc, ?_⟩
      rw [hcaptured, Option.not_isSome_iff_eq_none] at hc
      rw [captureThread_of_open hg hc]
  | ask t =>
    rw [GateEvent.Fits, ← hrun.captor_eq_some_iff hs, servicesFor_apply hg]
    cases hc : captor h₁ with
    | none =>
      rw [gateAfter_of_none hc]
      exact Or.inr ⟨by simp, rfl⟩
    | some owner =>
      rw [gateAfter_of_captor hc, hh, tableOf_append_of_captor hc]
      by_cases ht : owner = t
      · exact Or.inl ⟨congrArg some ht, if_pos ht⟩
      · exact Or.inr ⟨fun h => ht (Option.some.inj h), if_neg ht⟩

end GateRun

/-! ### Calls through a set -/

section Through

variable {p : Performer} {service : Service} {context : ContextId} {args : List Arg} {s : Session}

/-- A call of a service that the host has enters its entry point once. -/
theorem callService_live {table : ServiceTable Nat} {place : Nat} {point : EntryPoint}
    (hplace : table.entry? service = some place) (hpoint : s.entryPoints[place]? = some point) :
    callService p (.live table) service context args s =
      (replyTo args point.answering,
        (react p point.reacting (emit (.host point.service context args) s).2).2) := by
  rw [callService, ServiceSet.reach, hplace]
  dsimp only
  rw [enterHost, get_bind_apply, hpoint]
  rfl

theorem callService_missing {table : ServiceTable Nat} (h : table.entry? service = none) :
    callService p (.live table) service context args s =
      (.void, (log (.serviceMissing service) s).2) := by
  rw [callService, ServiceSet.reach, h]
  rfl

theorem callService_empty : callService p .empty service context args s = (.void, s) := rfl

end Through

/-- **The gate of the host.**  After any run from a new gate there is one table, with the entry
point that was registered last for each service before the first capture, and with nothing else.
Every call on the gate answered as it should: registrations and captures succeed until a capture
has succeeded, and are refused from then on; a thread has the services of the table if its capture
has succeeded before, and none otherwise.  The captured thread stays, and what is refused changes
nothing.  A set that was handed out at any time is good for exactly this: a live one enters the
entry point of the table once and returns what it replies; without one, and through an empty set,
a call enters nothing and its reply is void. -/
theorem GateRun.gatekeeping {i : Nat} {s u : Session} {h : List GateEvent}
    (hs : s.gates[i]? = some {}) (run : GateRun i s h u) :
    ∃ table : ServiceTable Nat,
      (∀ service, table.entry? service = (offered h service).map Prod.fst) ∧
      (table.map Prod.fst).Nodup ∧
      (∀ h₁ e h₂, h = h₁ ++ e :: h₂ → e.Fits h₁ table) ∧
      (∀ t, .capture t .done ∈ h →
        ∃ g, u.gates[i]? = some g ∧ g.captured = some (t, table)) ∧
      (Captured h →
        (∀ service place, registerService i service place u =
          (.fault (.registrationClosed service), (log (.registrationRefused service) u).2)) ∧
        ∀ t, captureThread i t u = (.fault .alreadyCaptured, u)) ∧
      (∀ t set, .ask t set ∈ h → ∀ p service context args,
        callService p set service context args u =
          match set, offered h service with
          | .live _, some (_, point) =>
            (replyTo args point.answering,
              (react p point.reacting (emit (.host point.service context args) u).2).2)
          | .live _, none => (.void, (log (.serviceMissing service) u).2)
          | .empty, _ => (.void, u)) := by
  have hg := run.gate hs
  have hcaptured := run.captured_iff hs
  refine ⟨tableOf h, entry?_tableOf h, nodup_tableOf h, fun h₁ e h₂ hh => run.answers hs hh,
    fun t ht => ?_, fun hc => ⟨fun service place => ?_, fun t => ?_⟩,
    fun t set hask p service context args => ?_⟩
  · rw [← run.captor_eq_some_iff hs] at ht
    exact ⟨_, hg, by rw [gateAfter_of_captor ht]⟩
  · exact registerService_of_captured hg (hcaptured.mp hc) service place
  · exact captureThread_of_captured hg (hcaptured.mp hc) t
  · obtain ⟨h₁, h₂, hh⟩ := List.append_of_mem hask
    have htable := entry?_tableOf h service
    rcases run.answers hs hh with ⟨-, rfl⟩ | ⟨-, rfl⟩
    · cases ho : offered h service with
      | none =>
        rw [ho] at htable
        exact callService_missing htable
      | some offer =>
        obtain ⟨place, point⟩ := offer
        rw [ho] at htable
        obtain ⟨answer, hmem⟩ := mem_of_offered ho
        exact callService_live htable (run.entryPoint hmem)
    · exact callService_empty

/-- A host with a new gate and two ways to reload. -/
def sampleHost : Session where
  entryPoints := #[⟨.reloadApp, .fixed .void, 0⟩, ⟨.reloadApp, .fixed (.int 7), 0⟩]
  gates := #[{}]

/-- The second way takes the place of the first; two captures, and a registration too late. -/
def sampleCalls : List GateEvent :=
  [.register .reloadApp 0 ⟨.reloadApp, .fixed .void, 0⟩ .done,
    .ask 1 .empty,
    .register .reloadApp 1 ⟨.reloadApp, .fixed (.int 7), 0⟩ .done,
    .capture 1 .done,
    .capture 2 (.fault .alreadyCaptured),
    .register .onJsError 0 ⟨.reloadApp, .fixed .void, 0⟩ (.fault (.registrationClosed .onJsError)),
    .ask 1 (.live [(.reloadApp, 1)])]

theorem sampleHost_run : ∃ u, GateRun 0 sampleHost sampleCalls u := by
  have opened : GateRun 0 sampleHost (sampleCalls.take 3) _ :=
    ((GateRun.nil.call (.register .reloadApp 0 rfl)).call (.ask 1 _)).call
      (.register .reloadApp 1 rfl)
  have captured : GateRun 0 sampleHost (sampleCalls.take 5) _ :=
    (opened.call (.capture 1 _)).call (.capture 2 _)
  exact ⟨_, (captured.call (.register .onJsError 0 rfl)).call (.ask 1 _)⟩

/-- On the captured thread, reloading enters the second way, and only that. -/
theorem sampleHost_gatekeeping : sampleHost.gates[0]? = some ({} : Gate Nat) ∧
    ∃ u, GateRun 0 sampleHost sampleCalls u ∧ ∀ p,
      callService p (.live [(.reloadApp, 1)]) .reloadApp 5 [] u =
          (.int 7, (react p 0 (emit (.host .reloadApp 5 []) u).2).2) ∧
        callService p (.live [(.reloadApp, 1)]) .onJsError 5 [] u =
          (.void, (log (.serviceMissing .onJsError) u).2) ∧
        callService p .empty .reloadApp 5 [] u = (.void, u) := by
  obtain ⟨u, run⟩ := sampleHost_run
  obtain ⟨table, -, -, -, -, -, hcalls⟩ := run.gatekeeping rfl
  refine ⟨rfl, u, run, fun p => ⟨?_, ?_, ?_⟩⟩
  · exact hcalls 1 (.live [(.reloadApp, 1)]) (by simp [sampleCalls]) p .reloadApp 5 []
  · exact hcalls 1 (.live [(.reloadApp, 1)]) (by simp [sampleCalls]) p .onJsError 5 []
  · exact hcalls 1 .empty (by simp [sampleCalls]) p .reloadApp 5 []

end Session
end ScriptHost
