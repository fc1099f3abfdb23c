/-
The timeline as scripts see it.

A script works on the timeline of its context through functions that bring their arguments into
shape, ask the timeline and hand over what it answers.  A `Request` is what the timeline is asked,
and `respond` is what it answers on its own.  So what scripts see can be told without scripts:

* `asks_or_refuses`, `Asks.run`, `Refuses.run` — a function asks for what its arguments are coerced
  to, or throws what the first argument that does not fit throws;
* `consult_spec` — asking the timeline of a session is asking the timeline on its own;
* `runsOn_perform` — whatever a session performs is a run of requests to each of its timelines;
* `Run.timeline_seen` — after every run, also with calls from within coercions, the timeline is what
  the requests have made of it one after the other, and every answer was handed over as it is;
* `nan_mark_hides_its_time` — as it is, except for times that are not finite: the text through which
  an entry passes has no number for them.

Design notes: converting an argument may call functions of the script, and these may call the
timeline before the call itself does.  In a `Run` the coercion of a call is therefore a run too, and
the request of the call comes after those that were made inside.
-/
import Mathlib.Data.List.Forall2
import ScriptHost.Proofs.Session.Scripts

namespace ScriptHost

namespace Session

open Script (Value Binding)
open Timeline (Request Response)

/-! ### What is handed over -/

/-- A time as a script sees it: only finite ones have a number. -/
def shownTime (x : Binary64) : Value := if x.isFinite then .number x else .null

/-- A script that looks at the value sees the entry. -/
structure Shows (v : Value) (e : Entry) : Prop where
  name : v.own? "name" = some (.text e.name)
  entryType : v.own? "entryType" = some (.text e.type.name)
  startTime : v.own? "startTime" = some (shownTime e.start)
  duration : v.own? "duration" = some (shownTime e.duration)

/-- What a script gets for an answer: entries as they are and in their order, and for a fault an
error of its class. -/
inductive HandedOver : Response → Except Value Value → Prop
  | entry {e : Entry} {v : Value} (h : Shows v e) : HandedOver (.entry e) (.ok v)
  | entries {es : List Entry} {vs : List Value} (h : List.Forall₂ Shows vs es) :
      HandedOver (.entries es) (.ok (.array vs))
  | count (n : Nat) : HandedOver (.count n) (.ok (.ofNat n))
  | nothing : HandedOver .nothing (.ok .undefined)
  | fault (f : Fault) :
      HandedOver (.fault f) (.error (.error (Realm.errorClass f.kind) (Text.clip f.message)))

/-- What a script gets for an answer. -/
def handOver : Response → Except Value Value
  | .entry e => .ok (Realm.entryValue e)
  | .entries es => .ok (Realm.entryValues es)
  | .count n => .ok (.ofNat n)
  | .nothing => .ok .undefined
  | .fault f => .error (Realm.thrown f)

theorem ofJson_ofReal (x : Binary64) : Value.ofJson (.ofReal x) = shownTime x := by
  rw [Json.ofReal, shownTime]
  split <;> rfl

theorem shows_entryValue (e : Entry) : Shows (Realm.entryValue e) e := by
  have hvalue : Realm.entryValue e = .object .plain
      [("name", .text e.name), ("entryType", .text e.type.name), ("startTime", shownTime e.start),
        ("duration", shownTime e.duration)] := by
    rw [← ofJson_ofReal, ← ofJson_ofReal]
    rfl
  rw [hvalue]
  exact ⟨rfl, rfl, rfl, rfl⟩

theorem handedOver_handOver (r : Response) : HandedOver r (handOver r) := by
  cases r with
  | entry e => exact .entry (shows_entryValue e)
  | entries es =>
    refine .entries ?_
    rw [List.forall₂_map_left_iff]
    exact List.forall₂_same.mpr fun e _ => shows_entryValue e
  | count n => exact .count n
  | nothing => exact .nothing
  | fault f => exact .fault f

/-! ### Coercion -/

section Coercion

variable (r : Realm)

/-- The text of an argument that may be left out: an undefined or a null one counts as absent, and
converting any other one may do whatever it does. -/
inductive Coerced : Option Value → Session → Option String → Session → Prop
  | absent {v : Option Value} (h : v = none ∨ v = some .undefined ∨ v = some .null) (s : Session) :
      Coerced v s none s
  | text {v : Value} {s t : Session} {text : String} (hundefined : v ≠ .undefined)
      (hnull : v ≠ .null) (h : (Script.toText r.call v).run s = (.ok text, t)) :
      Coerced (some v) s (some text) t

/-- Converting an argument throws. -/
inductive Unfit : Option Value → Session → Value → Session → Prop
  | intro {v thrown : Value} {s t : Session} (hundefined : v ≠ .undefined) (hnull : v ≠ .null)
      (h : (Script.toText r.call v).run s = (.error thrown, t)) : Unfit (some v) s thrown t

/-- What a function asks of the timeline when it is called with some arguments, and the state in
which it does so.  A name that is undefined or null is `undefined`, and a start time that is not a
number is none. -/
inductive Asks (args : List Value) (s : Session) : Binding → Request → Session → Prop
  | mark {name : Option String} {t : Session} (hargs : args ≠ [])
      (hname : Coerced r args[0]? s name t) :
      Asks args s .mark (.mark (name.getD "undefined") (args[1]?.bind Value.number?)) t
  | measure {name start finish : Option String} {t u v : Session} (hargs : args ≠ [])
      (hname : Coerced r args[0]? s name t) (hstart : Coerced r args[1]? t start u)
      (hfinish : Coerced r args[2]? u finish v) :
      Asks args s .measure (.measure (name.getD "undefined") start finish) v
  | clearMarks {name : Option String} {t : Session} (hname : Coerced r args[0]? s name t) :
      Asks args s .clearMarks (.clear .mark name) t
  | clearMeasures {name : Option String} {t : Session} (hname : Coerced r args[0]? s name t) :
      Asks args s .clearMeasures (.clear .measure name) t
  | getEntries : Asks args s .getEntries .entries s
  | getEntriesByName {name : Option String} {t : Session} (hargs : args ≠ [])
      (hname : Coerced r args[0]? s name t) :
      Asks args s .getEntriesByName (.named (name.getD "undefined")) t
  | getEntriesByType {name : Option String} {t : Session} (hargs : args ≠ [])
      (hname : Coerced r args[0]? s name t) :
      Asks args s .getEntriesByType (.typed (EntryType.ofName? (name.getD "undefined"))) t
  | summary : Asks args s .summary .summary s

/-- The functions that have to be given a name. -/
def needsName : Binding → Bool
  | .mark | .measure | .getEntriesByName | .getEntriesByType => true
  | _ => false

/-- The functions that take a name. -/
def takesName : Binding → Bool
  | .mark | .measure | .clearMarks | .clearMeasures | .getEntriesByName | .getEntriesByType => true
  | _ => false

/-- A function throws without having asked the timeline: a name is missing, or an argument cannot
be converted. -/
inductive Refuses (args : List Value) (s : Session) : Binding → Value → Session → Prop
  | missing {b : Binding} (hb : needsName b = true) (hargs : args = []) :
      Refuses args s b (Realm.thrown (.missingArgument b.name "Performance")) s
  | name {b : Binding} {thrown : Value} {t : Session} (hb : takesName b = true)
      (h : Unfit r args[0]? s thrown t) : Refuses args s b thrown t
  | start {name : Option String} {thrown : Value} {t u : Session}
      (hname : Coerced r args[0]? s name t) (h : Unfit r args[1]? t thrown u) :
      Refuses args s .measure thrown u
  | finish {name start : Option String} {thrown : Value} {t u v : Session}
      (hname : Coerced r args[0]? s name t) (hstart : Coerced r args[1]? t start u)
      (h : Unfit r args[2]? u thrown v) : Refuses args s .measure thrown v

/-- The functions of a script that work on the timeline. -/
def onTimeline : Binding → Bool
  | .mark | .measure | .clearMarks | .clearMeasures | .getEntries | .getEntriesByName
  | .getEntriesByType | .summary => true
  | _ => false

variable {r} {args : List Value} {s t : Session} {v : Option Value} {name : Option String}
  {thrown : Value} {b : Binding} {q : Request}

theorem Coerced.run (h : Coerced r v s name t) : (r.text? v).run s = (.ok name, t) := by
  cases h with
  | absent h => rcases h with rfl | rfl | rfl <;> rfl
  | @text v _ _ text hundefined hnull h =>
    have hnullish : v.isNullish = false := by
      cases v <;> simp_all [Value.isNullish]
    rw [Realm.text?, if_neg (ne_true_of_eq_false hnullish)]
    exact run_bind_of_ok h

theorem Unfit.run (h : Unfit r v s thrown t) : (r.text? v).run s = (.error thrown, t) := by
  cases h with
  | @intro v _ _ _ hundefined hnull h =>
    have hnullish : v.isNullish = false := by
      cases v <;> simp_all [Value.isNullish]
    rw [Realm.text?, if_neg (ne_true_of_eq_false hnullish)]
    exact run_bind_of_error h

variable (r) in
theorem coerced_or_unfit (v : Option Value) (s : Session) :
    (∃ name t, Coerced r v s name t) ∨ ∃ thrown t, Unfit r v s thrown t := by
  by_cases habsent : v = none ∨ v = some .undefined ∨ v = some .null
  · exact Or.inl ⟨none, s, .absent habsent s⟩
  · push Not at habsent
    obtain ⟨hnone, hundefined, hnull⟩ := habsent
    obtain ⟨v, rfl⟩ := Option.ne_none_iff_exists'.mp hnone
    have hundefined' : v ≠ .undefined := fun h => hundefined (congrArg some h)
    have hnull' : v ≠ .null := fun h => hnull (congrArg some h)
    cases hrun : (Script.toText r.call v).run s with
    | mk outcome t =>
      cases outcome with
      | ok text => exact Or.inl ⟨some text, t, .text hundefined' hnull' hrun⟩
      | error thrown => exact Or.inr ⟨thrown, t, .intro hundefined' hnull' hrun⟩

theorem entryName_of_coerced (hargs : args ≠ []) (h : Coerced r args[0]? s name t)
    (operation : String) :
    (r.entryName args operation).run s = (.ok (name.getD "undefined"), t) := by
  rw [Realm.entryName, if_neg (by simpa using hargs)]
  exact run_bind_of_ok h.run

theorem entryName_of_unfit (hargs : args ≠ []) (h : Unfit r args[0]? s thrown t)
    (operation : String) : (r.entryName args operation).run s = (.error thrown, t) := by
  rw [Realm.entryName, if_neg (by simpa using hargs)]
  exact run_bind_of_error h.run

/-- A function asks for what its arguments are coerced to, and hands over the answer. -/
theorem Asks.run (h : Asks r args s b q t) :
    (r.apply b args).run s = (handOver (consult r.context.timeline q t).1,
      (consult r.context.timeline q t).2) := by
  cases h with
  | mark hargs hname =>
    show (r.mark args).run s = _
    rw [Realm.mark]
    exact run_bind_of_ok (entryName_of_coerced hargs hname _)
  | @measure name start finish t u v hargs hname hstart hfinish =>
    show (r.measure args).run s = _
    rw [Realm.measure, run_bind_of_ok (entryName_of_coerced hargs hname _),
      run_bind_of_ok hstart.run, run_bind_of_ok hfinish.run, run_lift_bind, consult, bind_apply]
    cases (measureTimeline r.context.timeline (name.getD "undefined") start finish _).1 <;> rfl
  | clearMarks hname =>
    show (r.clear .mark args).run s = _
    rw [Realm.clear]
    exact run_bind_of_ok hname.run
  | clearMeasures hname =>
    show (r.clear .measure args).run s = _
    rw [Realm.clear]
    exact run_bind_of_ok hname.run
  | getEntries => rfl
  | getEntriesByName hargs hname =>
    show (r.getEntriesByName args).run s = _
    rw [Realm.getEntriesByName]
    exact run_bind_of_ok (entryName_of_coerced hargs hname _)
  | @getEntriesByType name _ hargs hname =>
    show (r.getEntriesByType args).run s = _
    rw [Realm.getEntriesByType, run_bind_of_ok (entryName_of_coerced hargs hname _)]
    cases EntryType.ofName? (name.getD "undefined") <;> rfl
  | summary => rfl

/-- A function throws what the first argument that does not fit throws. -/
theorem Refuses.run (h : Refuses r args s b thrown t) :
    (r.apply b args).run s = (.error thrown, t) := by
  cases h with
  | missing hb hargs =>
    subst hargs
    cases b with
    | mark | measure | getEntriesByName | getEntriesByType => rfl
    | _ => exact absurd hb (by decide)
  | name hb h =>
    have hargs : args ≠ [] := by
      rintro rfl
      cases h
    cases b with
    | mark => exact run_bind_of_error (entryName_of_unfit hargs h _)
    | measure => exact run_bind_of_error (entryName_of_unfit hargs h _)
    | clearMarks => exact run_bind_of_error h.run
    | clearMeasures => exact run_bind_of_error h.run
    | getEntriesByName => exact run_bind_of_error (entryName_of_unfit hargs h _)
    | getEntriesByType => exact run_bind_of_error (entryName_of_unfit hargs h _)
    | _ => exact absurd hb (by decide)
  | start hname h =>
    have hargs : args ≠ [] := by
      rintro rfl
      cases h
    show (r.measure args).run s = _
    rw [Realm.measure, run_bind_of_ok (entryName_of_coerced hargs hname _)]
    exact run_bind_of_error h.run
  | finish hname hstart h =>
    have hargs : args ≠ [] := by
      rintro rfl
      cases h
    show (r.measure args).run s = _
    rw [Realm.measure, run_bind_of_ok (entryName_of_coerced hargs hname _),
      run_bind_of_ok hstart.run]
    exact run_bind_of_error h.run

variable (r) in
/-- Whatever the arguments are, a function asks the timeline or throws. -/
theorem asks_or_refuses (hb : onTimeline b = true) (args : List Value) (s : Session) :
    (∃ q t, Asks r args s b q t) ∨ ∃ thrown t, Refuses r args s b thrown t := by
  by_cases hargs : args = []
  · subst hargs
    have hname : Coerced r ([] : List Value)[0]? s none s := .absent (Or.inl rfl) s
    cases b with
    | mark | measure | getEntriesByName | getEntriesByType =>
      exact Or.inr ⟨_, s, .missing rfl rfl⟩
    | clearMarks => exact Or.inl ⟨_, s, .clearMarks hname⟩
    | clearMeasures => exact Or.inl ⟨_, s, .clearMeasures hname⟩
    | getEntries => exact Or.inl ⟨_, s, .getEntries⟩
    | summary => exact Or.inl ⟨_, s, .summary⟩
    | _ => exact absurd hb (by decide)
  · rcases coerced_or_unfit r args[0]? s with ⟨name, t, hname⟩ | ⟨thrown, t, hthrown⟩
    · cases b with
      | mark => exact Or.inl ⟨_, t, .mark hargs hname⟩
      | measure =>
        rcases coerced_or_unfit r args[1]? t with ⟨start, u, hstart⟩ | ⟨thrown, u, hthrown⟩
        · rcases coerced_or_unfit r args[2]? u with ⟨finish, v, hfinish⟩ | ⟨thrown, v, hthrown⟩
          · exact Or.inl ⟨_, v, .measure hargs hname hstart hfinish⟩
          · exact Or.inr ⟨thrown, v, .finish hname hstart hthrown⟩
        · exact Or.inr ⟨thrown, u, .start hname hthrown⟩
      | clearMarks => exact Or.inl ⟨_, t, .clearMarks hname⟩
      | clearMeasures => exact Or.inl ⟨_, t, .clearMeasures hname⟩
      | getEntries => exact Or.inl ⟨_, s, .getEntries⟩
      | getEntriesByName => exact Or.inl ⟨_, t, .getEntriesByName hargs hname⟩
      | getEntriesByType => exact Or.inl ⟨_, t, .getEntriesByType hargs hname⟩
      | summary => exact Or.inl ⟨_, s, .summary⟩
      | _ => exact absurd hb (by decide)
    · cases b with
      | getEntries => exact Or.inl ⟨_, s, .getEntries⟩
      | summary => exact Or.inl ⟨_, s, .summary⟩
      | mark | measure | clearMarks | clearMeasures | getEntriesByName | getEntriesByType =>
        exact Or.inr ⟨thrown, t, .name rfl hthrown⟩
      | _ => exact absurd hb (by decide)

end Coercion

/-! ### Runs -/

/-- A request with the time and the entries of the source at that moment, and what the script was
handed for it, if it came from one. -/
structure Consultation where
  request : Request
  now : Binary64
  host : List Entry
  handed : Option (Except Value Value)

/-- What a timeline answers to a request that is made in this way. -/
def Consultation.respond (c : Consultation) (t : Timeline) : Response × Timeline :=
  t.respond c.now c.host c.request

/-- What some requests one after the other make of a timeline. -/
def replay (h : List Consultation) (t : Timeline) : Timeline :=
  h.foldl (fun t c => (c.respond t).2) t

/-- A run of a session, with what a timeline was asked on the way: by the functions of scripts,
whose arguments may be converted by runs of their own, and by others.  In between anything may
happen that leaves the timeline as it is. -/
inductive Run (i : Nat) : Session → List Consultation → Session → Prop
  | nil (s : Session) : Run i s [] s
  | elsewhere {s t u : Session} {h : List Consultation}
      (htimeline : (t.timelines[i]?).map (·.timeline) = (s.timelines[i]?).map (·.timeline))
      (rest : Run i t h u) : Run i s h u
  | host (q : Request) {s u : Session} {h : List Consultation}
      (rest : Run i (consult i q s).2 h u) :
      Run i s (⟨q, s.presentTime i, s.sourceEntries i, none⟩ :: h) u
  | call {r : Realm} (hr : r.context.timeline = i) {b : Binding} {args : List Value}
      {q : Request} {s t u : Session} {h h' : List Consultation} (asks : Asks r args s b q t)
      (inside : Run i s h t) (rest : Run i ((r.apply b args).run s).2 h' u) :
      Run i s (h ++ ⟨q, t.presentTime i, t.sourceEntries i, some ((r.apply b args).run s).1⟩ :: h') u
  | refused {r : Realm} {b : Binding} {args : List Value} {thrown : Value}
      {s t u : Session} {h h' : List Consultation} (refuses : Refuses r args s b thrown t)
      (inside : Run i s h t) (rest : Run i ((r.apply b args).run s).2 h' u) : Run i s (h ++ h') u

/-- Scripts are handed what the timeline answers to one request after the other. -/
def Faithful : Timeline → List Consultation → Prop
  | _, [] => True
  | t, c :: h => (∀ v, c.handed = some v → HandedOver (c.respond t).1 v) ∧ Faithful (c.respond t).2 h

section Runs

variable {i : Nat} {s t u : Session} {h h' : List Consultation} {o : TimelineObject}

theorem replay_append (h h' : List Consultation) (t : Timeline) :
    replay (h ++ h') t = replay h' (replay h t) := List.foldl_append

theorem Faithful.append {t : Timeline} (hh : Faithful t h) (hh' : Faithful (replay h t) h') :
    Faithful t (h ++ h') := by
  induction h generalizing t with
  | nil => exact hh'
  | cons c h ih => exact ⟨hh.1, ih hh.2 hh'⟩

theorem Faithful.handed {t : Timeline} {h₁ h₂ : List Consultation} {c : Consultation}
    {v : Except Value Value} (hh : Faithful t (h₁ ++ c :: h₂)) (hv : c.handed = some v) :
    HandedOver (c.respond (replay h₁ t)).1 v := by
  induction h₁ generalizing t with
  | nil => exact hh.1 v hv
  | cons c' h₁ ih => exact ih hh.2

/-- The timeline is what the requests have made of it, and what was handed over is what it
answered. -/
theorem Run.replayed (run : Run i s h u) (hi : s.timelines[i]? = some o) :
    (u.timelines[i]?).map (·.timeline) = some (replay h o.timeline) ∧
      Faithful o.timeline h := by
  induction run generalizing o with
  | nil s => exact ⟨congrArg (Option.map _) hi, trivial⟩
  | elsewhere htimeline _ ih =>
    rw [hi] at htimeline
    obtain ⟨o', ho', heq⟩ := Option.map_eq_some_iff.mp htimeline
    have hsame : o'.timeline = o.timeline := heq
    rw [← hsame]
    exact ih ho'
  | host q _ ih =>
    obtain ⟨-, hafter⟩ := consult_spec hi q
    obtain ⟨o', ho', heq⟩ := Option.map_eq_some_iff.mp hafter
    obtain ⟨hreplayed, hfaithful⟩ := ih ho'
    rw [heq] at hreplayed hfaithful
    exact ⟨hreplayed, nofun, hfaithful⟩
  | @call r hr b args q s t u h h' asks _ _ ihinside ihrest =>
    subst hr
    obtain ⟨hinside, hbefore⟩ := ihinside hi
    obtain ⟨o₁, ho₁, heq₁⟩ := Option.map_eq_some_iff.mp hinside
    obtain ⟨hanswer, hafter⟩ := consult_spec ho₁ q
    rw [heq₁] at hanswer hafter
    obtain ⟨o₂, ho₂, heq₂⟩ := Option.map_eq_some_iff.mp hafter
    rw [asks.run] at ihrest
    obtain ⟨hreplayed, hfaithful⟩ := ihrest ho₂
    rw [heq₂] at hreplayed hfaithful
    refine ⟨by rw [replay_append]; exact hreplayed, hbefore.append ⟨fun v hv => ?_, hfaithful⟩⟩
    obtain rfl := Option.some.inj hv
    rw [asks.run, Consultation.respond, ← hanswer]
    exact handedOver_handOver _
  | refused refuses _ _ ihinside ihrest =>
    obtain ⟨hinside, hbefore⟩ := ihinside hi
    obtain ⟨o₁, ho₁, heq₁⟩ := Option.map_eq_some_iff.mp hinside
    rw [refuses.run] at ihrest
    obtain ⟨hreplayed, hfaithful⟩ := ihrest ho₁
    rw [heq₁] at hreplayed hfaithful
    exact ⟨by rw [replay_append]; exact hreplayed, hbefore.append hfaithful⟩

/-- **Scripts see the timeline as it is, except for times that are not finite.**  After a run the
timeline is what the requests have made of it one after the other, and what a script was handed for
one of them is what the timeline answered, as it was at that moment. -/
theorem Run.timeline_seen (run : Run i s h u) (hi : s.timelines[i]? = some o) :
    (u.timelines[i]?).map (·.timeline) = some (replay h o.timeline) ∧
      ∀ h₁ c h₂ v, h = h₁ ++ c :: h₂ → c.handed = some v →
        HandedOver (c.respond (replay h₁ o.timeline)).1 v := by
  obtain ⟨hreplayed, hfaithful⟩ := run.replayed hi
  refine ⟨hreplayed, fun h₁ c h₂ v hsplit hv => ?_⟩
  subst hsplit
  exact hfaithful.handed hv

theorem Run.append (run : Run i s h t) (run' : Run i t h' u) : Run i s (h ++ h') u := by
  induction run with
  | nil _ => exact run'
  | elsewhere htimeline _ ih => exact .elsewhere htimeline (ih run')
  | host q _ ih => exact .host q (ih run')
  | call hr asks inside _ _ ihrest =>
    rw [List.append_assoc, List.cons_append]
    exact .call hr asks inside (ihrest run')
  | refused refuses inside _ _ ihrest =>
    rw [List.append_assoc]
    exact .refused refuses inside (ihrest run')

/-- A change that leaves the timeline as it is. -/
theorem Run.aside (htimeline : t.timelines[i]? = s.timelines[i]?) : Run i s [] t :=
  .elsewhere (congrArg (Option.map _) htimeline) (.nil t)

end Runs

/-! ### Whole sessions -/

/-- If the timeline is there before, a run leads from the one state to the other. -/
def RunsOn (i : Nat) (s t : Session) : Prop :=
  ∀ o, s.timelines[i]? = some o → ∃ h, Run i s h t

namespace RunsOn

variable {i : Nat} {s t u : Session}

theorem aside (htimelines : t.timelines = s.timelines) : RunsOn i s t :=
  fun _ _ => ⟨[], .aside (congrArg (·[i]?) htimelines)⟩

theorem trans (hst : RunsOn i s t) (htu : RunsOn i t u) : RunsOn i s u := fun o hi => by
  obtain ⟨h, run⟩ := hst o hi
  obtain ⟨o', hi', -⟩ := Option.map_eq_some_iff.mp (run.replayed hi).1
  obtain ⟨h', run'⟩ := htu o' hi'
  exact ⟨h ++ h', run.append run'⟩

/-- Whichever timeline changes by what it is asked: it is this one, or this one stays. -/
theorem timeline (j : Nat) (q : Request) (s : Session) :
    RunsOn i s (modifyTimeline j
      (fun t => (t.respond (s.presentTime j) (s.sourceEntries j) q).2) s).2 := fun o hi => by
  by_cases hj : j = i
  · subst hj
    obtain ⟨-, hafter⟩ := consult_spec hi q
    exact ⟨_, .host q (.elsewhere ((modifyTimeline_apply hi _).trans hafter.symm) (.nil _))⟩
  · refine ⟨[], .aside ?_⟩
    show (s.timelines.modify j _)[i]? = _
    rw [Array.getElem?_modify, if_neg hj]

theorem newTimeline (o : TimelineObject) (s : Session) :
    RunsOn i s { s with timelines := s.timelines.push o } := fun _ hi => by
  have hsize : i < s.timelines.size := (Array.getElem?_eq_some_iff.mp hi).1
  exact ⟨[], .aside (Array.getElem?_push_lt hsize ▸ (Array.getElem?_eq_getElem hsize).symm)⟩

/-- No call on a queue touches a timeline. -/
theorem queue {j : Nat} {e : Outlet.Event} (step : (quietOutlet j).Step s e t) : RunsOn i s t :=
  .aside <| step.preserves (P := fun u => u.timelines = s.timelines) (fun _ _ h => h)
    (fun _ _ h => h) rfl

theorem dispose (j : Nat) (s : Session) : RunsOn i s (disposeContext j s).2 := by
  refine .aside ?_
  rw [disposeContext_snd]
  dsimp only
  split
  · rfl
  · rfl

end RunsOn

instance (i : Nat) : Reporting (RunsOn i) where
  trans := RunsOn.trans
  unseen h := .aside (congrArg View.timelines h)
  elsewhere := @fun s t thread nextThread h => by
    -- which thread it is does not concern a timeline, neither before nor after
    have hbefore : RunsOn i s { s with thread, nextThread } := .aside rfl
    have hafter : RunsOn i t { t with thread := s.thread } := .aside rfl
    exact hbefore.trans (h.trans hafter)
  emit _ _ _ := .aside rfl
  newTimeline := .newTimeline
  timeline := .timeline
  newQueue _ _ _ _ := .aside rfl
  queue _ _ _ _ := .queue
  newContext _ _ _ _ _ := .aside rfl
  dispose := .dispose
  newDispatcher _ _ := .aside rfl
  roster _ _ _ _ := .aside rfl
  newRuntime _ _ := .aside rfl
  runtime _ _ _ _ _ := .aside rfl
  report _ _ _ := .aside rfl

/-- **Whatever a session performs, it is a run of each of its timelines.**  In the end the timeline
is what it was asked to become, one request after the other. -/
theorem runsOn_perform (depth : Nat) (step : Step) {i : Nat} {s : Session} {o : TimelineObject}
    (hi : s.timelines[i]? = some o) : ∃ h, Run i s h (perform depth step s).2 :=
  along_perform (R := RunsOn i) depth step s o hi

/-- A timeline with one mark and no source. -/
def sampleTimeline : Session where
  timelines := #[{
    timeline := { context := 1, origin := .zero, entries := [.mark "own" .negativeZero] }
    clock := .system 0
    source := none }]

/-- A realm of that timeline in which no function can be called. -/
def sampleRealm : Realm where
  perform _ := return .done
  runtime := 0
  context := { (default : Context) with timeline := 0 }
  call _ _ := throw .undefined
  depth := 0

/-- A script marks a time that is not a number and asks for all entries. -/
def sampleConsultations : List Consultation :=
  [⟨.mark "x" (some .nan), .zero, [], some (.ok (Realm.entryValue (.mark "x" .nan)))⟩,
    ⟨.entries, .zero, [],
      some (.ok (Realm.entryValues [.mark "own" .negativeZero, .mark "x" .nan]))⟩]

theorem sampleConsultations_run : ∃ u, Run 0 sampleTimeline sampleConsultations u := by
  have hmark : Asks sampleRealm [.text "x", .number .nan] sampleTimeline .mark
      (.mark "x" (some .nan)) sampleTimeline :=
    .mark (List.cons_ne_nil _ _) (.text (by simp) (by simp) rfl)
  exact ⟨_, .call (h := []) rfl hmark (.nil _) <|
    .call (h := []) rfl (Asks.getEntries : Asks sampleRealm [] _ _ _ _) (.nil _) (.nil _)⟩

theorem sampleConsultations_faithful : ∃ u, Run 0 sampleTimeline sampleConsultations u ∧
    (u.timelines[0]?).map (·.timeline.entries) =
      some [.mark "own" .negativeZero, .mark "x" .nan] ∧
    HandedOver (.entries [.mark "own" .negativeZero, .mark "x" .nan])
      (.ok (Realm.entryValues [.mark "own" .negativeZero, .mark "x" .nan])) := by
  obtain ⟨u, run⟩ := sampleConsultations_run
  obtain ⟨hreplayed, hhanded⟩ := run.timeline_seen rfl
  refine ⟨u, run, ?_, hhanded (sampleConsultations.take 1) _ [] _ rfl rfl⟩
  have hentries := congrArg (Option.map Timeline.entries) hreplayed
  rwa [Option.map_map] at hentries

/-- What is not a number is recorded, but a script that has recorded it does not see it. -/
theorem nan_mark_hides_its_time : ∃ t v,
    (sampleRealm.apply .mark [.text "x", .number .nan]).run sampleTimeline = (.ok v, t) ∧
      ((t.timelines[0]?).bind fun o => o.timeline.entries.getLast?) = some (.mark "x" .nan) ∧
      v.own? "startTime" = some .null := ⟨_, _, rfl, rfl, rfl⟩

end Session
end ScriptHost
