/-
How far a call of the host gets.

A call of a service goes to the gate as seen from the thread of the caller.  On the captured thread
it enters the entry point of the service, or is logged if the host has none; on every other thread
nothing comes of it.  Whatever the host does when it has been entered comes after that.

* `entering_of_captured`, `entering_of_missing`, `entering_of_elsewhere` — what becomes visible of a
  call before the host reacts, told from the gate;
* `reaches_iff` — whether the host is entered, told from the gate;
* `GateRun.entering` — what becomes visible, told from what was asked of the gate before;
* `callServices_of_reaches`, `callServices_of_not_reaches` — nothing else comes of a call, except
  for the reaction of a host that is entered.
-/
import ScriptHost.Proofs.Gate.History

namespace ScriptHost.Session

/-- What becomes visible of a call of a service on the present thread before the host reacts. -/
def entering (s : Session) (gate : Nat) (service : Service) (context : ContextId)
    (args : List Arg) : List Effect :=
  match (services gate s).1.reach service with
  | .host place => (s.entryPoints[place]?).toList.map fun e => .host e.service context args
  | .missing => [.log (.serviceMissing service)]
  | .nowhere => []

/-- A call of a service, up to the place where the host reacts. -/
def approach (gate : Nat) (service : Service) (context : ContextId) (args : List Arg)
    (s : Session) : Session :=
  { s with effects := s.effects.appendList (s.entering gate service context args) }

/-- Calls a service of a gate on the present thread. -/
def callServices (p : Performer) (gate : Nat) (service : Service) (context : ContextId)
    (args : List Arg) : SessionM Reply := do
  callService p (← services gate) service context args

section Entering

variable {s : Session} {gate : Nat} {g : Gate Nat} {table : ServiceTable Nat} {service : Service}
  {context : ContextId} {args : List Arg} {p : Performer}

theorem services_apply (gate : Nat) (s : Session) : services gate s =
    (((s.gates[gate]?).map fun g => g.servicesFor s.thread).getD .empty, s) := rfl

theorem services_of_captured (hg : s.gates[gate]? = some g)
    (hcaptured : g.captured = some (s.thread, table)) : (services gate s).1 = .live table := by
  rw [services_apply, hg]
  show g.servicesFor s.thread = _
  rw [Gate.servicesFor, hcaptured]
  exact if_pos rfl

/-- On the captured thread, a call enters the entry point of the service. -/
theorem entering_of_captured {place : Nat} {point : EntryPoint} (hg : s.gates[gate]? = some g)
    (hcaptured : g.captured = some (s.thread, table)) (hplace : table.entry? service = some place)
    (hpoint : s.entryPoints[place]? = some point) :
    s.entering gate service context args = [.host point.service context args] := by
  rw [entering, services_of_captured hg hcaptured, ServiceSet.reach, hplace]
  dsimp only
  rw [hpoint]
  rfl

/-- If the host has no such service, that is logged. -/
theorem entering_of_missing (hg : s.gates[gate]? = some g)
    (hcaptured : g.captured = some (s.thread, table)) (hplace : table.entry? service = none) :
    s.entering gate service context args = [.log (.serviceMissing service)] := by
  rw [entering, services_of_captured hg hcaptured, ServiceSet.reach, hplace]

theorem services_of_elsewhere
    (h : ∀ g table, s.gates[gate]? = some g → g.captured ≠ some (s.thread, table)) :
    (services gate s).1 = .empty := by
  rw [services_apply]
  cases hg : s.gates[gate]? with
  | none => rfl
  | some g =>
    show g.servicesFor s.thread = _
    rw [Gate.servicesFor]
    cases hcaptured : g.captured with
    | none => rfl
    | some owned =>
      obtain ⟨owner, table⟩ := owned
      refine if_neg fun howner => h g table hg ?_
      rw [hcaptured, howner]

/-- Where no thread or another one has been captured, nothing happens. -/
theorem entering_of_elsewhere
    (h : ∀ g table, s.gates[gate]? = some g → g.captured ≠ some (s.thread, table)) :
    s.entering gate service context args = [] := by
  rw [entering, services_of_elsewhere h, ServiceSet.reach]

/-- On a thread, a call of the service enters the host: the gate has captured the thread, and the
host has such a service. -/
def Reaches (s : Session) (gate : Nat) (thread : ThreadId) (service : Service) : Prop :=
  ∃ g table place point, s.gates[gate]? = some g ∧ g.captured = some (thread, table) ∧
    table.entry? service = some place ∧ s.entryPoints[place]? = some point

theorem reaches_of_reach {place : Nat} {point : EntryPoint}
    (hreach : (services gate s).1.reach service = .host place)
    (hpoint : s.entryPoints[place]? = some point) : s.Reaches gate s.thread service := by
  by_cases hcaptured : ∃ g table, s.gates[gate]? = some g ∧ g.captured = some (s.thread, table)
  · obtain ⟨g, table, hg, hcaptured⟩ := hcaptured
    rw [services_of_captured hg hcaptured, ServiceSet.reach] at hreach
    cases hplace : table.entry? service with
    | none =>
      rw [hplace] at hreach
      cases hreach
    | some found =>
      rw [hplace] at hreach
      cases hreach
      exact ⟨g, table, place, point, hg, hcaptured, hplace, hpoint⟩
  · rw [services_of_elsewhere fun g table hg h => hcaptured ⟨g, table, hg, h⟩] at hreach
    cases hreach

/-- Whether the host is entered can be seen. -/
theorem reaches_iff : s.Reaches gate s.thread service ↔
    ∃ name, .host name context args ∈ s.entering gate service context args := by
  constructor
  · rintro ⟨g, table, place, point, hg, hcaptured, hplace, hpoint⟩
    rw [entering_of_captured hg hcaptured hplace hpoint]
    exact ⟨_, List.mem_singleton_self _⟩
  · rintro ⟨name, hmem⟩
    rw [entering] at hmem
    cases hreach : (services gate s).1.reach service with
    | missing => simp [hreach] at hmem
    | nowhere => simp [hreach] at hmem
    | host place =>
      cases hpoint : s.entryPoints[place]? with
      | none => simp [hreach, hpoint] at hmem
      | some point => exact reaches_of_reach hreach hpoint

/-- A call that enters the host does what becomes visible of it, and then the host reacts. -/
theorem callServices_of_reaches (h : s.Reaches gate s.thread service) (p : Performer)
    (context : ContextId) (args : List Arg) :
    ∃ r, (callServices p gate service context args s).2 =
      (react p r (approach gate service context args s)).2 := by
  obtain ⟨g, table, place, point, hg, hcaptured, hplace, hpoint⟩ := h
  have hservices : services gate s = ((services gate s).1, s) := rfl
  refine ⟨point.reacting, ?_⟩
  rw [approach, entering_of_captured hg hcaptured hplace hpoint, callServices, bind_apply,
    hservices, services_of_captured hg hcaptured, callService, ServiceSet.reach, hplace]
  dsimp only
  rw [enterHost, get_bind_apply, hpoint]
  rfl

/-- Where the host is not entered, it does not react either. -/
theorem callServices_of_not_reaches (h : ¬ s.Reaches gate s.thread service) (p : Performer)
    (context : ContextId) (args : List Arg) :
    (callServices p gate service context args s).2 = approach gate service context args s := by
  have hservices : services gate s = ((services gate s).1, s) := rfl
  rw [callServices, bind_apply, approach, entering, hservices]
  dsimp only
  rw [callService]
  cases hreach : (services gate s).1.reach service with
  | missing => rfl
  | nowhere => rfl
  | host place =>
    dsimp only
    rw [enterHost, get_bind_apply]
    cases hpoint : s.entryPoints[place]? with
    | none => rfl
    | some point => exact absurd (reaches_of_reach hreach hpoint) h

/-- A call does what becomes visible of it, and then the host may react. -/
theorem callServices_snd (p : Performer) (gate : Nat) (service : Service) (context : ContextId)
    (args : List Arg) (s : Session) :
    (callServices p gate service context args s).2 = approach gate service context args s ∨
      ∃ r, (callServices p gate service context args s).2 =
        (react p r (approach gate service context args s)).2 := by
  by_cases h : s.Reaches gate s.thread service
  · exact Or.inr (callServices_of_reaches h p context args)
  · exact Or.inl (callServices_of_not_reaches h p context args)

end Entering

/-- **How far a call gets.**  After a run from a new gate, a call enters the host exactly if the
present thread was the first to be captured and somebody has registered an entry point for the
service before that. -/
theorem GateRun.entering {i : Nat} {s u : Session} {h : List GateEvent}
    (hs : s.gates[i]? = some {}) (run : GateRun i s h u) (service : Service) (context : ContextId)
    (args : List Arg) :
    u.entering i service context args =
      if captor h = some u.thread then
        match offered h service with
        | some (_, point) => [.host point.service context args]
        | none => [.log (.serviceMissing service)]
      else [] := by
  have hg := run.gate hs
  have htable := entry?_tableOf h service
  split
  next hc =>
    rw [gateAfter_of_captor hc] at hg
    cases ho : offered h service with
    | none =>
      rw [ho] at htable
      exact entering_of_missing hg rfl htable
    | some offer =>
      obtain ⟨place, point⟩ := offer
      rw [ho] at htable
      obtain ⟨answer, hmem⟩ := mem_of_offered ho
      exact entering_of_captured hg rfl htable (run.entryPoint hmem)
  next hc =>
    refine entering_of_elsewhere fun g table hg' hcaptured => ?_
    obtain rfl := Option.some.inj (hg.symm.trans hg')
    rw [gateAfter] at hcaptured
    cases howner : captor h with
    | none =>
      rw [howner] at hcaptured
      exact absurd hcaptured (by simp)
    | some owner =>
      rw [howner] at hcaptured hc
      obtain ⟨rfl, -⟩ := Prod.mk.inj (Option.some.inj hcaptured)
      exact hc rfl

end ScriptHost.Session
