/-
The own entries of a timeline, as a log.

A timeline is asked one thing after the other, and from what it answers one can tell what happens to
its log: a mark or a measure that succeeds is recorded, a clear is made.  `history` lists these
events, and `surviving` is what they leave: the recorded entries that no later clear concerns.

* `surviving_append` — what survives a history survives its first part and what comes after it;
* `respond_surviving`, `measureEach_surviving` — one request, and one summary, does to the entries
  what its events say;
* `entries_after` — and so does any course of requests;
* `entries_eq_surviving` — the log after any course, where its entries come from and what stays;
* `Session.Run.entries_eq` — in particular, the log of a timeline of a session.

Design notes: a summary consults clock and source anew for each phase, so a request goes with the
`Moment`s of its consultations.  For its events a summary is the measures that it tries.
-/
import ScriptHost.Proofs.Timeline.Scripts

namespace ScriptHost.Timeline

/-! ### Events of a log -/

inductive LogEvent where
  | recorded (e : Entry)
  | cleared (type : EntryType) (name : Option String)

/-- A clear concerns the entries of its type: all of them, or those of a name. -/
def LogEvent.clears : LogEvent → Entry → Bool
  | recorded _, _ => false
  | cleared type name, e => e.type = type ∧ name.all (e.name = ·)

/-- The recorded entries that no later event clears, in the order of recording. -/
def surviving : List LogEvent → List Entry
  | [] => []
  | .recorded e :: later =>
    if later.any (·.clears e) then surviving later else e :: surviving later
  | .cleared _ _ :: later => surviving later

section Surviving

variable {e : Entry} {h : List LogEvent}

/-- What has survived goes through the clears that come after it. -/
theorem surviving_append (h later : List LogEvent) :
    surviving (h ++ later) =
      (surviving h).filter (fun e => !later.any (·.clears e)) ++ surviving later := by
  induction h with
  | nil => rfl
  | cons event h ih =>
    cases event with
    | cleared type name => exact ih
    | recorded e =>
      rw [List.cons_append, surviving, surviving, List.any_append, ih]
      cases h.any (·.clears e) with
      | true => rw [Bool.true_or, if_pos rfl, if_pos rfl]
      | false =>
        rw [Bool.false_or, if_neg Bool.false_ne_true]
        cases hlater : later.any (·.clears e) with
        | true => rw [if_pos rfl, List.filter_cons_of_neg (by simp [hlater])]
        | false =>
          rw [if_neg Bool.false_ne_true, List.filter_cons_of_pos (by simp [hlater]),
            List.cons_append]

theorem surviving_recorded (es : List Entry) : surviving (es.map .recorded) = es := by
  induction es with
  | nil => rfl
  | cons e es ih =>
    have hkept : (es.map LogEvent.recorded).any (·.clears e) = false := by
      rw [List.any_eq_false]
      intro event hevent
      obtain ⟨d, -, rfl⟩ := List.mem_map.mp hevent
      exact Bool.false_ne_true
    rw [List.map_cons, surviving, hkept, if_neg Bool.false_ne_true, ih]

theorem surviving_concat_recorded (h : List LogEvent) (e : Entry) :
    surviving (h ++ [.recorded e]) = surviving h ++ [e] := by
  have hall : (surviving h).filter (fun d => !([LogEvent.recorded e].any (·.clears d))) =
      surviving h := List.filter_eq_self.mpr fun _ _ => rfl
  rw [surviving_append, hall]
  rfl

theorem surviving_concat_cleared (h : List LogEvent) (type : EntryType) (name : Option String) :
    surviving (h ++ [.cleared type name]) =
      (surviving h).filter fun e => !(LogEvent.cleared type name).clears e := by
  rw [surviving_append]
  simp only [List.any_cons, List.any_nil, Bool.or_false, surviving, List.append_nil]

theorem recorded_of_mem_surviving (he : e ∈ surviving h) : .recorded e ∈ h := by
  induction h with
  | nil => exact absurd he List.not_mem_nil
  | cons event h ih =>
    cases event with
    | cleared type name => exact List.mem_cons_of_mem _ (ih he)
    | recorded d =>
      rw [surviving] at he
      split at he
      · exact List.mem_cons_of_mem _ (ih he)
      · rcases List.mem_cons.mp he with rfl | he
        · exact List.mem_cons_self
        · exact List.mem_cons_of_mem _ (ih he)

end Surviving

/-! ### What a timeline is asked -/

/-- What the clock reads and the source has when they are consulted. -/
structure Moment where
  now : Binary64
  host : List Entry

/-- A request, with the moments in which it consults clock and source. -/
structure Asking where
  request : Request
  moments : Nat → Moment

/-- Measures some phases one after the other, each at its own moment. -/
def measureEach : List (Phase × Moment) → Timeline → List (Phase × Option Fault) × Timeline
  | [], t => ([], t)
  | (p, m) :: rest, t =>
    let (fault, t) := t.measurePhase m.now m.host p
    let (outcomes, t) := measureEach rest t
    ((p, fault) :: outcomes, t)

namespace Asking

/-- The phases of a summary, each with its moment. -/
def phases (a : Asking) : List (Phase × Moment) :=
  Phase.all.zipIdx.map fun (p, n) => (p, a.moments n)

/-- What a timeline answers, and what becomes of it. -/
def respond (a : Asking) (t : Timeline) : Response × Timeline :=
  match a.request with
  | .summary =>
    let (outcomes, t) := measureEach a.phases t
    (.count (recorded outcomes), t)
  | q => t.respond (a.moments 0).now (a.moments 0).host q

end Asking

/-- What a course of requests makes of a timeline. -/
def after (t : Timeline) (course : List Asking) : Timeline :=
  course.foldl (fun t a => (a.respond t).2) t

/-! ### What happens to its log -/

/-- What a request other than a summary does to the log, told from its answer. -/
def noted : Request → Response → List LogEvent
  | .clear type name, _ => [.cleared type name]
  | _, .entry e => [.recorded e]
  | _, _ => []

/-- The request by which a phase is measured. -/
def phaseRequest (p : Phase) : Request := .measure p.measure (some p.start) (some p.finish)

def notedEach : List (Phase × Moment) → Timeline → List LogEvent
  | [], _ => []
  | (p, m) :: rest, t =>
    noted (phaseRequest p) (t.respond m.now m.host (phaseRequest p)).1 ++
      notedEach rest (t.measurePhase m.now m.host p).2

def Asking.events (a : Asking) (t : Timeline) : List LogEvent :=
  match a.request with
  | .summary => notedEach a.phases t
  | q => noted q (a.respond t).1

/-- All events of a course of requests. -/
def history (t : Timeline) : List Asking → List LogEvent
  | [] => []
  | a :: rest => a.events t ++ history (a.respond t).2 rest

section Events

variable {t : Timeline} {h : List LogEvent} {now : Binary64} {host : List Entry} {q : Request}
  {e : Entry}

theorem entries_clear (t : Timeline) (type : EntryType) (name : Option String) :
    (t.clear type name).entries =
      t.entries.filter fun e => !(LogEvent.cleared type name).clears e := by
  refine List.filter_congr fun e _ => ?_
  cases name <;> simp [LogEvent.clears]

theorem entries_of_measure {name : String} {start finish : Option String} {t' : Timeline}
    (h : t.measure now host name start finish = .ok (e, t')) :
    (∃ duration, e = .measure name now duration) ∧ t' = t.push e := by
  rw [measure] at h
  cases hspan : span now (t.merged host) start finish with
  | error fault =>
    rw [hspan] at h
    cases h
  | ok duration =>
    rw [hspan] at h
    obtain ⟨rfl, rfl⟩ := Prod.mk.inj (Except.ok.inj h)
    exact ⟨⟨duration, rfl⟩, rfl⟩

/-- The step: what a request does to the entries is what its event says. -/
theorem respond_surviving (hq : q ≠ .summary) (ht : t.entries = surviving h) :
    (t.respond now host q).2.entries = surviving (h ++ noted q (t.respond now host q).1) := by
  have hnothing : t.entries = surviving (h ++ []) := by rw [List.append_nil, ht]
  cases q with
  | mark name start =>
    show t.entries ++ [_] = surviving (h ++ [.recorded _])
    rw [surviving_concat_recorded, ht]
    rfl
  | measure name start finish =>
    rw [respond]
    cases hm : t.measure now host name start finish with
    | error fault => exact hnothing
    | ok outcome =>
      obtain ⟨e, t'⟩ := outcome
      obtain ⟨-, rfl⟩ := entries_of_measure hm
      show t.entries ++ [e] = surviving (h ++ [.recorded e])
      rw [surviving_concat_recorded, ht]
  | clear type name =>
    show (t.clear type name).entries = surviving (h ++ [.cleared type name])
    rw [surviving_concat_cleared, entries_clear, ht]
  | entries => exact hnothing
  | named name => exact hnothing
  | typed type => cases type <;> exact hnothing
  | summary => exact absurd rfl hq

/-- Measuring a phase is making its request. -/
theorem measurePhase_snd (t : Timeline) (now : Binary64) (host : List Entry) (p : Phase) :
    (t.measurePhase now host p).2 = (t.respond now host (phaseRequest p)).2 := by
  rw [measurePhase, phaseRequest, respond]
  cases t.measure now host p.measure (some p.start) (some p.finish) <;> rfl

theorem measureEach_surviving (phases : List (Phase × Moment)) (ht : t.entries = surviving h) :
    (measureEach phases t).2.entries = surviving (h ++ notedEach phases t) := by
  -- on the phases; the invariant is that the entries are those that survive so far
  induction phases generalizing t h with
  | nil => rw [notedEach, List.append_nil, ← ht, measureEach]
  | cons x rest ih =>
    obtain ⟨p, m⟩ := x
    have hfirst : (t.measurePhase m.now m.host p).2.entries =
        surviving (h ++ noted (phaseRequest p) (t.respond m.now m.host (phaseRequest p)).1) := by
      rw [measurePhase_snd]
      exact respond_surviving nofun ht
    rw [notedEach, ← List.append_assoc]
    exact ih hfirst

theorem Asking.respond_surviving (a : Asking) (ht : t.entries = surviving h) :
    (a.respond t).2.entries = surviving (h ++ a.events t) := by
  rw [Asking.respond, Asking.events, Asking.respond]
  cases a.request with
  | summary => exact measureEach_surviving a.phases ht
  | _ => exact Timeline.respond_surviving nofun ht

/-- The run: the entries are what survives of the whole history. -/
theorem entries_after (course : List Asking) (ht : t.entries = surviving h) :
    (t.after course).entries = surviving (h ++ t.history course) := by
  induction course generalizing t h with
  | nil => rw [history, List.append_nil, ← ht, after, List.foldl_nil]
  | cons a rest ih =>
    rw [history, ← List.append_assoc]
    exact ih (a.respond_surviving ht)

/-! ### Where entries come from -/

/-- A request makes an entry: a mark one of its name, at the time that is given or else at the
present one; a measure one of its name, at the present time; and a summary one for a phase, at the
time at which it is measured. -/
inductive Asking.Makes (a : Asking) : Entry → Prop
  | mark {name : String} {start : Option Binary64} (ha : a.request = .mark name start) :
      Makes a (.mark name (start.getD (a.moments 0).now))
  | measure {name : String} {start finish : Option String}
      (ha : a.request = .measure name start finish) (duration : Binary64) :
      Makes a (.measure name (a.moments 0).now duration)
  | phase {p : Phase} {n : Nat} (ha : a.request = .summary) (hp : Phase.all[n]? = some p)
      (duration : Binary64) : Makes a (.measure p.measure (a.moments n).now duration)

theorem recorded_of_measure {name : String} {start finish : Option String}
    (he : .recorded e ∈ noted (.measure name start finish)
      (t.respond now host (.measure name start finish)).1) :
    ∃ duration, e = .measure name now duration := by
  rw [respond] at he
  cases hm : t.measure now host name start finish with
  | error fault =>
    rw [hm] at he
    exact absurd he List.not_mem_nil
  | ok outcome =>
    rw [hm] at he
    obtain ⟨hmade, -⟩ := entries_of_measure hm
    obtain rfl : e = outcome.1 := LogEvent.recorded.inj (List.mem_singleton.mp he)
    exact hmade

theorem recorded_of_mem_notedEach {phases : List (Phase × Moment)}
    (he : .recorded e ∈ notedEach phases t) :
    ∃ x ∈ phases, ∃ duration, e = .measure x.1.measure x.2.now duration := by
  induction phases generalizing t with
  | nil => exact absurd he List.not_mem_nil
  | cons x rest ih =>
    obtain ⟨p, m⟩ := x
    rcases List.mem_append.mp he with he | he
    · exact ⟨(p, m), List.mem_cons_self, recorded_of_measure he⟩
    · obtain ⟨x, hx, hmade⟩ := ih he
      exact ⟨x, List.mem_cons_of_mem _ hx, hmade⟩

theorem Asking.makes_of_mem_events {a : Asking} (he : .recorded e ∈ a.events t) : a.Makes e := by
  rw [Asking.events, Asking.respond] at he
  cases ha : a.request with
  | summary =>
    rw [ha] at he
    obtain ⟨x, hx, duration, rfl⟩ := recorded_of_mem_notedEach he
    obtain ⟨⟨p, n⟩, hp, rfl⟩ := List.mem_map.mp hx
    exact .phase ha (List.mem_zipIdx_iff_getElem?.mp hp) duration
  | mark name start =>
    rw [ha] at he
    obtain rfl := LogEvent.recorded.inj (List.mem_singleton.mp he)
    exact .mark ha
  | measure name start finish =>
    rw [ha] at he
    obtain ⟨duration, rfl⟩ := recorded_of_measure he
    exact .measure ha duration
  | clear type name =>
    rw [ha] at he
    exact nomatch List.mem_singleton.mp he
  | entries | named _ =>
    rw [ha] at he
    exact absurd he List.not_mem_nil
  | typed type =>
    rw [ha] at he
    cases type <;> exact absurd he List.not_mem_nil

theorem makes_of_mem_history {course : List Asking} (he : .recorded e ∈ t.history course) :
    ∃ a ∈ course, a.Makes e := by
  induction course generalizing t with
  | nil => exact absurd he List.not_mem_nil
  | cons a rest ih =>
    rcases List.mem_append.mp he with he | he
    · exact ⟨a, List.mem_cons_self, Asking.makes_of_mem_events he⟩
    · obtain ⟨b, hb, hmade⟩ := ih he
      exact ⟨b, List.mem_cons_of_mem _ hb, hmade⟩

end Events

/-! ### What stays -/

section Unchanged

variable {t : Timeline}

theorem clear_keeps_others (t : Timeline) (type : EntryType) (name : Option String) :
    (t.clear type name).entries.filter (·.type ≠ type) = t.entries.filter (·.type ≠ type) := by
  rw [entries_clear, List.filter_filter]
  refine List.filter_congr fun e _ => ?_
  by_cases htype : e.type = type <;> simp [LogEvent.clears, htype]

/-- The requests that only ask. -/
def Request.isQuery : Request → Bool
  | .entries | .named _ | .typed _ => true
  | _ => false

theorem Asking.respond_unchanged {a : Asking}
    (h : a.request.isQuery = true ∨ ∃ fault, (a.respond t).1 = .fault fault) :
    (a.respond t).2 = t := by
  rw [Asking.respond] at h ⊢
  cases ha : a.request with
  | mark name start =>
    rw [ha] at h
    exact absurd h (by simp [Request.isQuery, Timeline.respond])
  | measure name start finish =>
    rw [ha] at h
    dsimp only at h ⊢
    rw [Timeline.respond] at h ⊢
    cases hm : t.measure (a.moments 0).now (a.moments 0).host name start finish with
    | error fault => rfl
    | ok outcome =>
      rw [hm] at h
      exact absurd h (by simp [Request.isQuery])
  | clear type name =>
    rw [ha] at h
    exact absurd h (by simp [Request.isQuery, Timeline.respond])
  | entries => rfl
  | named name => rfl
  | typed type => cases type <;> rfl
  | summary =>
    rw [ha] at h
    exact absurd h (by simp [Request.isQuery])

end Unchanged

/-! ### Clocks that stand still, and sources that do not change -/

theorem measureEach_of_host (host : List Entry) (phases : List (Phase × Binary64)) (t : Timeline) :
    measureEach (phases.map fun x => (x.1, ⟨x.2, host⟩)) t = measurePhases host phases t := by
  induction phases generalizing t with
  | nil => rfl
  | cons x rest ih =>
    rw [List.map_cons, measureEach, measurePhases]
    dsimp only
    rw [ih]

theorem Asking.respond_summaryBy (t : Timeline) (readings : Nat → Binary64) (host : List Entry) :
    (⟨.summary, fun n => ⟨readings n, host⟩⟩ : Asking).respond t =
      (.count (recorded (t.summaryBy readings host).1), (t.summaryBy readings host).2) := by
  have hphases : (⟨.summary, fun n => ⟨readings n, host⟩⟩ : Asking).phases =
      (Phase.timed readings).map fun x => (x.1, ⟨x.2, host⟩) := by
    rw [Asking.phases, Phase.timed, List.map_map]
    rfl
  rw [Asking.respond]
  dsimp only
  rw [hphases, measureEach_of_host, summaryBy]

theorem Asking.respond_still (q : Request) (now : Binary64) (host : List Entry) (t : Timeline) :
    (⟨q, fun _ => ⟨now, host⟩⟩ : Asking).respond t = t.respond now host q := by
  cases q with
  | summary => exact Asking.respond_summaryBy t (fun _ => now) host
  | _ => rfl

/-! ### The log -/

/-- **The log of a timeline.**  After any course of marks, measures, clears, summaries and queries,
by any clock and with any source, the own entries are what has been recorded, as it was recorded and
in that order, less what a later clear of its type concerned.  Nothing is in the log but what such a
request has made; a clear leaves the entries of the other type alone, and neither a query nor a
measure that fails changes anything.  A summary may find the source changed from phase to phase; if
the source stays as it is, this is `summaryBy`. -/
theorem entries_eq_surviving (t : Timeline) (course : List Asking) :
    (t.after course).entries = surviving (t.entries.map .recorded ++ t.history course) ∧
      (∀ (readings : Nat → Binary64) (host : List Entry),
        (⟨.summary, fun n => ⟨readings n, host⟩⟩ : Asking).respond t =
          (.count (recorded (t.summaryBy readings host).1), (t.summaryBy readings host).2)) ∧
      (∀ e ∈ (t.after course).entries, e ∈ t.entries ∨ ∃ a ∈ course, a.Makes e) ∧
      (∀ type name, ((t.after course).clear type name).entries.filter (·.type ≠ type) =
        (t.after course).entries.filter (·.type ≠ type)) ∧
      ∀ a : Asking,
        a.request.isQuery = true ∨ (∃ fault, (a.respond (t.after course)).1 = .fault fault) →
          (a.respond (t.after course)).2 = t.after course := by
  have hentries := entries_after course (surviving_recorded t.entries).symm
  refine ⟨hentries, Asking.respond_summaryBy t, fun e he => ?_,
    fun type name => clear_keeps_others _ type name, fun a ha => Asking.respond_unchanged ha⟩
  rw [hentries] at he
  rcases List.mem_append.mp (recorded_of_mem_surviving he) with he | he
  · obtain ⟨d, hd, hsame⟩ := List.mem_map.mp he
    exact Or.inl (LogEvent.recorded.inj hsame ▸ hd)
  · exact Or.inr (makes_of_mem_history he)

/-- Two marks, one of them without a name, a measure that fails and one that does not; then the
marks without a name are cleared. -/
def sampleCourse : List Asking :=
  [.mark "" none, .mark "a" none, .measure "m" (some "b") none, .measure "" none none,
    .clear .mark (some "")].map fun q => ⟨q, fun _ => ⟨.zero, []⟩⟩

theorem sampleCourse_entries :
    (after { context := 1, origin := .zero } sampleCourse).entries =
      [.mark "a" .zero, .measure "" .zero .zero] ∧
    (after { context := 1, origin := .zero } (sampleCourse.take 3)).entries =
      (after { context := 1, origin := .zero } (sampleCourse.take 2)).entries := by
  obtain ⟨hentries, -⟩ := entries_eq_surviving { context := 1, origin := .zero } sampleCourse
  obtain ⟨-, -, -, -, hunchanged⟩ :=
    entries_eq_surviving { context := 1, origin := .zero } (sampleCourse.take 2)
  refine ⟨hentries.trans rfl, ?_⟩
  exact congrArg Timeline.entries
    (hunchanged ⟨.measure "m" (some "b") none, fun _ => ⟨.zero, []⟩⟩ (Or.inr ⟨_, rfl⟩))

end ScriptHost.Timeline

namespace ScriptHost.Session

open Timeline (surviving)

/-- A consultation reads the clock once. -/
def Consultation.asking (c : Consultation) : Timeline.Asking := ⟨c.request, fun _ => ⟨c.now, c.host⟩⟩

theorem replay_eq_after (h : List Consultation) (t : Timeline) :
    replay h t = t.after (h.map Consultation.asking) := by
  induction h generalizing t with
  | nil => rfl
  | cons c h ih =>
    have hrespond : (c.asking.respond t).2 = (c.respond t).2 :=
      congrArg Prod.snd (Timeline.Asking.respond_still c.request c.now c.host t)
    rw [List.map_cons, Timeline.after, List.foldl_cons, hrespond]
    exact ih (c.respond t).2

/-- Whatever a session does, the log of a timeline is what its requests make of it. -/
theorem Run.entries_eq {i : Nat} {s u : Session} {h : List Consultation} {o : TimelineObject}
    (run : Run i s h u) (hi : s.timelines[i]? = some o) :
    (u.timelines[i]?).map (·.timeline.entries) = some (surviving
      (o.timeline.entries.map .recorded ++ o.timeline.history (h.map Consultation.asking))) := by
  have hreplayed := congrArg (Option.map Timeline.entries) (run.replayed hi).1
  rw [Option.map_map, Option.map_some, replay_eq_after] at hreplayed
  rw [← Timeline.entries_after _ (Timeline.surviving_recorded o.timeline.entries).symm]
  exact hreplayed

end ScriptHost.Session
