/-
Measures between marks.

A mark name stands for an entry: for the earliest recorded own entry of that name, if the timing
source has nothing, and otherwise for the one with the least start time among all entries of that
name.  A measure looks up the first entry of the name in the merged entries; since the sort is
stable, that is the entry for which the name stands.

* `first_of_mergeSort` — the first element of some kind in a sorted list is the least of the kind,
  and the first of those in the unsorted list;
* `StandsFor.unique`, `StandsFor.timeOf` — a name stands for one entry, and the lookup finds it;
* `Lasts.span`, `Misses.span` — how long it is between two marks, which is the difference of their
  times rounded to a double, and which mark is missing;
* `measure_between` — what a measure answers and records.
-/
import ScriptHost.Proofs.Binary64.Rounding
import ScriptHost.Proofs.Timeline.Merging

namespace ScriptHost

namespace Timeline

/-! ### What a name stands for -/

/-- The first element of some kind in a sorted list is the least of its kind; of several that are
least it is the one that came first. -/
theorem first_of_mergeSort {α : Type} {le : α → α → Bool}
    (htrans : ∀ a b c, le a b = true → le b c = true → le a c = true)
    (htotal : ∀ a b, (le a b || le b a) = true) {p : α → Bool} {l : List α} {e : α}
    (h : (l.mergeSort le).find? p = some e) :
    ∃ before after, l = before ++ e :: after ∧
      (∀ d ∈ before, p d = true → ¬ le d e = true) ∧ ∀ d ∈ after, p d = true → le e d = true := by
  obtain ⟨hp, front, back, hsplit, hfront⟩ := List.find?_eq_some_iff_append.mp h
  have hrefl : le e e = true := by simpa using htotal e e
  have hsorted : (front ++ e :: back).Pairwise fun a b => le a b = true :=
    hsplit ▸ List.pairwise_mergeSort htrans htotal l
  -- before it there is nothing of the kind in the sorted list, and after it nothing is less
  have hleast : ∀ d ∈ l, p d = true → le e d = true := by
    intro d hd hpd
    have hd' : d ∈ front ++ e :: back := hsplit ▸ (List.mergeSort_perm l le).mem_iff.mpr hd
    rcases List.mem_append.mp hd' with hd' | hd'
    · have := hfront d hd'
      simp [hpd] at this
    · rcases List.mem_cons.mp hd' with rfl | hd'
      · exact hrefl
      · exact List.rel_of_pairwise_cons (List.pairwise_append.mp hsorted).2.1 hd'
  -- those tied with it are in the order in which they were, so it is the first of them there too
  have htied : (l.mergeSort le).filter (fun d => le d e && le e d) =
      l.filter fun d => le d e && le e d := by
    refine filter_mergeSort htrans htotal (fun a b ha hb => ?_) l
    rw [Bool.and_eq_true] at ha hb
    exact htrans a e b ha.1 hb.2
  have hfirst : (l.filter fun d => le d e && le e d).find? p = some e := by
    rw [← htied, List.find?_filter, hsplit]
    refine List.find?_eq_some_iff_append.mpr ⟨by simp [hrefl, hp], front, back, rfl, fun d hd => ?_⟩
    have := hfront d hd
    simp_all
  rw [List.find?_filter] at hfirst
  obtain ⟨-, before, after, hl, hbefore⟩ := List.find?_eq_some_iff_append.mp hfirst
  refine ⟨before, after, hl, fun d hd hpd hde => ?_, fun d hd hpd => ?_⟩
  · have hed := hleast d (by simp [hl, hd]) hpd
    have := hbefore d hd
    simp [hpd, hde, hed] at this
  · exact hleast d (by simp [hl, hd]) hpd

/-- The entry for which a mark name stands, among the entries of the source and the own ones. -/
inductive StandsFor (host own : List Entry) (mark : String) (e : Entry) : Prop
  /-- The source has nothing: the own entry of that name that was recorded first. -/
  | recorded (hhost : host = []) (hname : e.name = mark) {before after : List Entry}
      (hown : own = before ++ e :: after) (hbefore : ∀ d ∈ before, d.name ≠ mark)
  /-- Otherwise the entry of that name with the least start time; of several the first, where those
  of the source come before the own ones. -/
  | least (hhost : host ≠ []) (hname : e.name = mark) {before after : List Entry}
      (hall : host ++ own = before ++ e :: after)
      (hbefore : ∀ d ∈ before, d.name = mark → ¬ Binary64.TotalOrder d.start e.start)
      (hafter : ∀ d ∈ after, d.name = mark → Binary64.TotalOrder e.start d.start)

/-- An entry of the source or an own one has this name. -/
def Known (host own : List Entry) (mark : String) : Prop := ∃ e ∈ host ++ own, e.name = mark

variable {host own : List Entry} {mark : String} {x now : Binary64}

theorem mem_merge {e : Entry} : e ∈ merge host own ↔ e ∈ host ++ own := by
  by_cases hhost : host = []
  · rw [hhost, merge_nil, List.nil_append]
  · exact (merge_perm hhost).mem_iff

/-- If a list is split at two entries of a name, nothing of that name after the first is less, and
everything of that name before the second is greater, then the splits are at the same entry. -/
theorem eq_of_append_eq {before after before' after' : List Entry} {d e : Entry}
    (hsplit : before ++ d :: after = before' ++ e :: after') (hd : d.name = mark)
    (he : e.name = mark)
    (hafter : ∀ a ∈ after, a.name = mark → Binary64.TotalOrder d.start a.start)
    (hbefore : ∀ a ∈ before', a.name = mark → ¬ Binary64.TotalOrder a.start e.start)
    (hlength : before.length ≤ before'.length) : d = e := by
  obtain ⟨middle, rfl, hrest⟩ : ∃ middle, before' = before ++ middle ∧
      d :: after = middle ++ e :: after' := by
    rcases List.append_eq_append_iff.mp hsplit with h | ⟨middle, hbefore', hrest⟩
    · exact h
    · obtain rfl : middle = [] := by
        have := congrArg List.length hbefore'
        rw [List.length_append] at this
        exact List.eq_nil_of_length_eq_zero (by omega)
      exact ⟨[], by simpa using hbefore'.symm, by simpa using hrest.symm⟩
  cases middle with
  | nil => exact (List.cons.inj hrest).1
  | cons a middle =>
    obtain ⟨rfl, rfl⟩ := List.cons.inj hrest
    exact absurd (hafter e (by simp) he) (hbefore d (by simp) hd)

/-- A name stands for one entry. -/
theorem StandsFor.unique {d e : Entry} (hd : StandsFor host own mark d)
    (he : StandsFor host own mark e) : d = e := by
  cases hd with
  | recorded hhost hname hown hbefore =>
    cases he with
    | recorded _ hname' hown' hbefore' =>
      have hfirst : own.find? (·.name = mark) = some d :=
        List.find?_eq_some_iff_append.mpr ⟨decide_eq_true hname, _, _, hown, by simpa using hbefore⟩
      have hfirst' : own.find? (·.name = mark) = some e :=
        List.find?_eq_some_iff_append.mpr
          ⟨decide_eq_true hname', _, _, hown', by simpa using hbefore'⟩
      exact Option.some.inj (hfirst.symm.trans hfirst')
    | least hhost' => exact absurd hhost hhost'
  | @least hhost hname before after hall hbefore hafter =>
    cases he with
    | recorded hhost' => exact absurd hhost' hhost
    | @least _ hname' before' after' hall' hbefore' hafter' =>
      have hsplit := hall.symm.trans hall'
      rcases Nat.le_total before.length before'.length with h | h
      · exact eq_of_append_eq hsplit hname hname' hafter hbefore' h
      · exact (eq_of_append_eq hsplit.symm hname' hname hafter' hbefore h).symm

theorem standsFor_of_find {e : Entry} (h : (merge host own).find? (·.name = mark) = some e) :
    StandsFor host own mark e := by
  have hname : e.name = mark := by simpa using List.find?_some h
  by_cases hhost : host = []
  · rw [hhost, merge_nil] at h
    obtain ⟨-, before, after, hown, hbefore⟩ := List.find?_eq_some_iff_append.mp h
    exact .recorded hhost hname hown fun d hd => by simpa using hbefore d hd
  · rw [merge_of_ne_nil hhost] at h
    obtain ⟨before, after, hall, hbefore, hafter⟩ :=
      first_of_mergeSort startLe_trans startLe_total h
    refine .least hhost hname hall (fun d hd hd' h => ?_) fun d hd hd' => ?_
    · exact hbefore d hd (decide_eq_true hd') (Binary64.totalLe_iff.mpr h)
    · exact Binary64.totalLe_iff.mp (hafter d hd (decide_eq_true hd'))

theorem Known.exists_standsFor (h : Known host own mark) : ∃ e, StandsFor host own mark e := by
  obtain ⟨e, he, hname⟩ := h
  obtain ⟨d, hfind⟩ : ∃ d, (merge host own).find? (·.name = mark) = some d :=
    Option.isSome_iff_exists.mp <| List.find?_isSome.mpr
      ⟨e, mem_merge.mpr he, decide_eq_true hname⟩
  exact ⟨d, standsFor_of_find hfind⟩

theorem StandsFor.known {e : Entry} (h : StandsFor host own mark e) : Known host own mark := by
  cases h with
  | recorded hhost hname hown => exact ⟨e, by simp [hown], hname⟩
  | least hhost hname hall => exact ⟨e, by simp [hall], hname⟩

/-- A lookup gives the start time of the entry for which the name stands. -/
theorem StandsFor.timeOf {e : Entry} (h : StandsFor host own mark e) :
    timeOf (merge host own) mark = .ok e.start := by
  rw [Timeline.timeOf]
  cases hfind : (merge host own).find? (·.name = mark) with
  | some d => rw [h.unique (standsFor_of_find hfind)]
  | none =>
    obtain ⟨d, hd, hname⟩ := h.known
    exact absurd (decide_eq_true hname) (List.find?_eq_none.mp hfind d (mem_merge.mpr hd))

/-- A lookup fails if no entry has the name. -/
theorem timeOf_of_not_known (h : ¬ Known host own mark) :
    timeOf (merge host own) mark = .error (.markNotFound "measure" mark) := by
  have hfind : (merge host own).find? (·.name = mark) = none :=
    List.find?_eq_none.mpr fun e he hname =>
      h ⟨e, mem_merge.mp he, by simpa using hname⟩
  rw [timeOf, hfind]

/-! ### How long it is -/

/-- A mark name is given if it is there and not empty. -/
def Given (mark? : Option String) (mark : String) : Prop := mark? = some mark ∧ mark ≠ ""

/-- How long a measure takes that ends now, if it is between these marks. -/
inductive Lasts (host own : List Entry) (now : Binary64) (start finish : Option String) :
    Binary64 → Prop
  | between {m n : String} {d e : Entry} {x : Binary64} (hstart : Given start m)
      (hd : StandsFor host own m d) (hfinish : Given finish n) (he : StandsFor host own n e)
      (hx : Binary64.Difference e.start d.start x) : Lasts host own now start finish x
  | sinceMark {m : String} {d : Entry} {x : Binary64} (hstart : Given start m)
      (hd : StandsFor host own m d) (hfinish : ∀ n, ¬ Given finish n)
      (hx : Binary64.Difference now d.start x) : Lasts host own now start finish x
  | untilMark {n : String} {e : Entry} (hstart : ∀ m, ¬ Given start m) (hfinish : Given finish n)
      (he : StandsFor host own n e) : Lasts host own now start finish e.start
  | sinceOrigin (hstart : ∀ m, ¬ Given start m) (hfinish : ∀ n, ¬ Given finish n) :
      Lasts host own now start finish now

/-- The mark that a measure misses: the start mark, or else the end mark. -/
def Misses (host own : List Entry) (start finish : Option String) (m : String) : Prop :=
  ¬ Known host own m ∧ (Given start m ∨ Given finish m ∧ ∀ n, Given start n → Known host own n)

variable {start finish mark? : Option String}

theorem givenMark_of_given (h : Given mark? mark) : givenMark mark? = some mark := by
  rw [h.1, givenMark]
  simp [h.2]

theorem givenMark_of_not_given (h : ∀ m, ¬ Given mark? m) : givenMark mark? = none := by
  rw [givenMark, Option.filter_eq_none_iff]
  intro m hm hne
  exact h m ⟨hm, by simpa using hne⟩

theorem Lasts.span {x : Binary64} (h : Lasts host own now start finish x) :
    span now (merge host own) start finish = .ok x := by
  rw [Timeline.span]
  cases h with
  | between hstart hd hfinish he hx =>
    rw [givenMark_of_given hstart, givenMark_of_given hfinish, Option.mapM_some, hd.timeOf,
      Option.mapM_some, he.timeOf, Binary64.difference_iff.mp hx]
    rfl
  | sinceMark hstart hd hfinish hx =>
    rw [givenMark_of_given hstart, givenMark_of_not_given hfinish, Option.mapM_some, hd.timeOf,
      Binary64.difference_iff.mp hx]
    rfl
  | untilMark hstart hfinish he =>
    rw [givenMark_of_not_given hstart, givenMark_of_given hfinish, Option.mapM_some, he.timeOf]
    rfl
  | sinceOrigin hstart hfinish =>
    rw [givenMark_of_not_given hstart, givenMark_of_not_given hfinish]
    rfl

theorem Lasts.unique {x y : Binary64} (hx : Lasts host own now start finish x)
    (hy : Lasts host own now start finish y) : x = y :=
  Except.ok.inj (hx.span.symm.trans hy.span)

theorem exists_lasts (now : Binary64)
    (hknown : ∀ m, Given start m ∨ Given finish m → Known host own m) :
    ∃ x, Lasts host own now start finish x := by
  by_cases hstart : ∃ m, Given start m
  · obtain ⟨m, hm⟩ := hstart
    obtain ⟨d, hd⟩ := (hknown m (Or.inl hm)).exists_standsFor
    by_cases hfinish : ∃ n, Given finish n
    · obtain ⟨n, hn⟩ := hfinish
      obtain ⟨e, he⟩ := (hknown n (Or.inr hn)).exists_standsFor
      exact ⟨_, .between hm hd hn he (Binary64.difference_sub _ _)⟩
    · exact ⟨_, .sinceMark hm hd (not_exists.mp hfinish) (Binary64.difference_sub _ _)⟩
  · by_cases hfinish : ∃ n, Given finish n
    · obtain ⟨n, hn⟩ := hfinish
      obtain ⟨e, he⟩ := (hknown n (Or.inr hn)).exists_standsFor
      exact ⟨_, .untilMark (not_exists.mp hstart) hn he⟩
    · exact ⟨_, .sinceOrigin (not_exists.mp hstart) (not_exists.mp hfinish)⟩

theorem Misses.span (h : Misses host own start finish mark) :
    span now (merge host own) start finish = .error (.markNotFound "measure" mark) := by
  obtain ⟨hmark, hgiven⟩ := h
  rw [Timeline.span]
  rcases hgiven with hstart | ⟨hfinish, hknown⟩
  · rw [givenMark_of_given hstart, Option.mapM_some, timeOf_of_not_known hmark]
    rfl
  · rw [givenMark_of_given hfinish]
    by_cases hstart : ∃ n, Given start n
    · obtain ⟨n, hn⟩ := hstart
      obtain ⟨d, hd⟩ := (hknown n hn).exists_standsFor
      rw [givenMark_of_given hn, Option.mapM_some, hd.timeOf, Option.mapM_some,
        timeOf_of_not_known hmark]
      rfl
    · rw [givenMark_of_not_given (not_exists.mp hstart), Option.mapM_some,
        timeOf_of_not_known hmark]
      rfl

/-- Either every mark that is given is known, or there is one that the measure misses. -/
theorem known_or_misses (host own : List Entry) (start finish : Option String) :
    (∀ m, Given start m ∨ Given finish m → Known host own m) ∨
      ∃ m, Misses host own start finish m := by
  by_cases hstart : ∀ m, Given start m → Known host own m
  · by_cases hfinish : ∀ m, Given finish m → Known host own m
    · exact Or.inl fun m hm => hm.elim (hstart m) (hfinish m)
    · push Not at hfinish
      obtain ⟨m, hm, hmissing⟩ := hfinish
      exact Or.inr ⟨m, hmissing, Or.inr ⟨hm, hstart⟩⟩
  · push Not at hstart
    obtain ⟨m, hm, hmissing⟩ := hstart
    exact Or.inr ⟨m, hmissing, Or.inl hm⟩

end Timeline

namespace Session

open Timeline (Given Known Lasts Misses)

variable {s : Session} {i : Nat} {o : TimelineObject} {start finish : Option String}

/-- The timing source has been asked, if there are marks to look up. -/
def lookedUp (s : Session) (i : Nat) (start finish : Option String) : Session :=
  if Timeline.looksUp start finish then s.asked i else s

theorem lookedUp_timelines : (s.lookedUp i start finish).timelines = s.timelines := by
  rw [lookedUp, asked]
  split
  · split <;> rfl
  · rfl

/-- Without marks to look up it makes no difference that the source has not been asked. -/
theorem span_of_not_looksUp {now : Binary64} (entries : List Entry)
    (h : Timeline.looksUp start finish = false) :
    Timeline.span now entries start finish = .ok now := by
  obtain ⟨hstart, hfinish⟩ : Timeline.givenMark start = none ∧ Timeline.givenMark finish = none := by
    simpa [Timeline.looksUp] using h
  rw [Timeline.span, hstart, hfinish]
  rfl

/-- The timeline has one more entry. -/
def recorded (s : Session) (i : Nat) (e : Entry) : Session :=
  { s with timelines := s.timelines.modify i fun o => { o with timeline := o.timeline.push e } }

theorem modifyTimeline_push (hi : s.timelines[i]? = some o) (e : Entry) :
    modifyTimeline i (fun _ => o.timeline.push e) s = ((), s.recorded i e) := by
  refine Prod.ext rfl (congrArg (fun timelines => { s with timelines }) ?_)
  refine Array.ext_getElem? fun j => ?_
  rw [Array.getElem?_modify, Array.getElem?_modify]
  split
  · next h => rw [← h, hi]; rfl
  · rfl

theorem nowOf_apply : nowOf i s =
    (Timeline.milliseconds (s.readClock (s.timelines[i]?.getD default).clock), s) := rfl

/-- A measure asks the source if it has marks to look up, and then records the entry. -/
theorem measureTimeline_eq (hi : s.timelines[i]? = some o) (name : String) :
    measureTimeline i name start finish s =
      match o.timeline.measure (Timeline.milliseconds (s.readClock o.clock)) (s.sourceEntries i)
        name start finish with
      | .ok (e, _) => (.ok e, (s.lookedUp i start finish).recorded i e)
      | .error fault => (.error fault, s.lookedUp i start finish) := by
  have ho : s.timelines[i]?.getD default = o := by rw [hi]; rfl
  have hat : (s.lookedUp i start finish).timelines[i]? = some o := by rw [lookedUp_timelines, hi]
  -- what comes after the source has been asked, or has not
  have hrest : ∀ now host, (do
      match (← timelineAt i).measure now host name start finish with
      | .ok (entry, t) =>
        modifyTimeline i fun _ => t
        return .ok entry
      | .error fault => return .error fault : SessionM (Except Fault Entry))
        (s.lookedUp i start finish) =
      match o.timeline.measure now host name start finish with
      | .ok (e, _) => (.ok e, (s.lookedUp i start finish).recorded i e)
      | .error fault => (.error fault, s.lookedUp i start finish) := by
    intro now host
    rw [timelineAt, bind_apply, get_bind_apply, hat]
    dsimp only [pure, StateT.pure, Option.getD_some]
    rw [Timeline.measure]
    cases Timeline.span now (o.timeline.merged host) start finish with
    | error fault => rfl
    | ok x =>
      dsimp only [bind, Except.bind, pure, Except.pure]
      exact congrArg (fun r : Unit × Session => (Except.ok _, r.2)) (modifyTimeline_push hat _)
  rw [measureTimeline, bind_apply, nowOf_apply, ho]
  dsimp only
  cases hlooks : Timeline.looksUp start finish with
  | true =>
    rw [lookedUp, if_pos hlooks] at hrest ⊢
    rw [if_pos rfl, bind_apply, fetchEntries_apply]
    exact hrest _ _
  | false =>
    rw [lookedUp, if_neg (ne_true_of_eq_false hlooks)] at hrest ⊢
    refine (hrest _ []).trans ?_
    rw [Timeline.measure, Timeline.measure, span_of_not_looksUp _ hlooks,
      span_of_not_looksUp _ hlooks]

/-- **Measures between marks.**  A measure succeeds exactly if every mark name that is given, and
not empty, is the name of an entry of the source or an own one.  It then records one entry, stamped
with the present time, that lasts as long as it is between what its marks stand for.  Otherwise the
fault names the mark that is missing, the start mark first, and the timeline stays as it was. -/
theorem measure_between (hi : s.timelines[i]? = some o) (name : String)
    (start finish : Option String) :
    let host := s.sourceEntries i
    let own := o.timeline.entries
    let now := Timeline.milliseconds (s.readClock o.clock)
    let known := ∀ m, Given start m ∨ Given finish m → Known host own m
    ((∃ e, (measureTimeline i name start finish s).1 = .ok e) ↔ known) ∧
      (known → ∃ x, (∀ y, Lasts host own now start finish y ↔ y = x) ∧
        measureTimeline i name start finish s =
          (.ok (.measure name now x),
            (s.lookedUp i start finish).recorded i (.measure name now x))) ∧
      (¬ known → ∃ m, Misses host own start finish m ∧
        measureTimeline i name start finish s =
          (.error (.markNotFound "measure" m), s.lookedUp i start finish)) := by
  intro host own now known
  have heq : measureTimeline i name start finish s = _ := measureTimeline_eq hi name
  rw [Timeline.measure, Timeline.merged] at heq
  have hok : known → ∃ x, (∀ y, Lasts host own now start finish y ↔ y = x) ∧
      measureTimeline i name start finish s = (.ok (.measure name now x),
        (s.lookedUp i start finish).recorded i (.measure name now x)) := by
    intro hknown
    obtain ⟨x, hx⟩ := Timeline.exists_lasts now hknown
    rw [hx.span] at heq
    exact ⟨x, fun y => ⟨fun hy => hy.unique hx, fun hy => hy ▸ hx⟩, heq⟩
  have hfault : ¬ known → ∃ m, Misses host own start finish m ∧
      measureTimeline i name start finish s =
        (.error (.markNotFound "measure" m), s.lookedUp i start finish) := by
    intro hunknown
    obtain ⟨m, hm⟩ := (Timeline.known_or_misses host own start finish).resolve_left hunknown
    rw [hm.span] at heq
    exact ⟨m, hm, heq⟩
  refine ⟨⟨fun ⟨e, he⟩ => ?_, fun hknown => ?_⟩, hok, hfault⟩
  · by_contra hunknown
    obtain ⟨m, -, heq⟩ := hfault hunknown
    rw [heq] at he
    cases he
  · obtain ⟨x, -, heq⟩ := hok hknown
    exact ⟨_, congrArg Prod.fst heq⟩

/-- A timeline nine milliseconds after its origin, with two marks of one name, and a source with
another mark. -/
def workTimelines : Session where
  clocks := #[9000]
  sources := #[[.mark "ready" (.ofNat 8)]]
  timelines := #[{
    timeline := { context := 1, origin := .zero,
                  entries := [.mark "begin" (.ofNat 6), .mark "begin" (.ofNat 5)] }
    clock := .manual 0
    source := some 0 }]

theorem workTimelines_measured :
    measureTimeline 0 "work" (some "begin") (some "ready") workTimelines =
        (.ok (.measure "work" (.ofNat 9) (.ofNat 3)),
          (workTimelines.asked 0).recorded 0 (.measure "work" (.ofNat 9) (.ofNat 3))) ∧
      measureTimeline 0 "work" (some "begin") none workTimelines =
        (.ok (.measure "work" (.ofNat 9) (.ofNat 4)),
          (workTimelines.asked 0).recorded 0 (.measure "work" (.ofNat 9) (.ofNat 4))) ∧
      measureTimeline 0 "work" (some "") (some "lost") workTimelines =
        (.error (.markNotFound "measure" "lost"), workTimelines.asked 0) := by
  have hi : workTimelines.timelines[0]? = some workTimelines.timelines[0] := rfl
  have hbegin : Timeline.StandsFor (workTimelines.sourceEntries 0)
      workTimelines.timelines[0].timeline.entries "begin" (.mark "begin" (.ofNat 5)) := by
    have hall : workTimelines.sourceEntries 0 ++ workTimelines.timelines[0].timeline.entries =
        [.mark "ready" (.ofNat 8), .mark "begin" (.ofNat 6)] ++ .mark "begin" (.ofNat 5) :: [] := rfl
    exact .least (by decide) rfl hall (by decide +kernel) nofun
  have hready : Timeline.StandsFor (workTimelines.sourceEntries 0)
      workTimelines.timelines[0].timeline.entries "ready" (.mark "ready" (.ofNat 8)) := by
    have hall : workTimelines.sourceEntries 0 ++ workTimelines.timelines[0].timeline.entries =
        [] ++ .mark "ready" (.ofNat 8) :: [.mark "begin" (.ofNat 6), .mark "begin" (.ofNat 5)] := rfl
    exact .least (by decide) rfl hall nofun (by decide +kernel)
  have hgiven : Given (some "begin") "begin" := ⟨rfl, by decide⟩
  refine ⟨?_, ?_, ?_⟩
  · obtain ⟨-, hok, -⟩ := measure_between hi "work" (some "begin") (some "ready")
    obtain ⟨x, hx, hmeasured⟩ := hok (by
      rintro m (⟨hm, -⟩ | ⟨hm, -⟩)
      · exact Option.some.inj hm ▸ hbegin.known
      · exact Option.some.inj hm ▸ hready.known)
    obtain rfl : x = .ofNat 3 :=
      ((hx _).mp (.between hgiven hbegin ⟨rfl, by decide⟩ hready (by decide +kernel))).symm
    exact hmeasured
  · obtain ⟨-, hok, -⟩ := measure_between hi "work" (some "begin") none
    obtain ⟨x, hx, hmeasured⟩ := hok (by
      rintro m (⟨hm, -⟩ | ⟨hm, -⟩)
      · exact Option.some.inj hm ▸ hbegin.known
      · cases hm)
    obtain rfl : x = .ofNat 4 :=
      ((hx _).mp (.sinceMark hgiven hbegin nofun (by decide +kernel))).symm
    exact hmeasured
  · obtain ⟨-, -, hfault⟩ := measure_between hi "work" (some "") (some "lost")
    have hlost : ¬ Known (workTimelines.sourceEntries 0)
        workTimelines.timelines[0].timeline.entries "lost" := by
      rintro ⟨e, he, hname⟩
      revert e
      decide
    obtain ⟨m, ⟨-, hm⟩, hmeasured⟩ := hfault fun hknown => hlost (hknown _ (Or.inr ⟨rfl, by decide⟩))
    obtain rfl : m = "lost" := by
      rcases hm with ⟨hm, hne⟩ | ⟨⟨hm, -⟩, -⟩
      · exact absurd (Option.some.inj hm).symm hne
      · exact (Option.some.inj hm).symm
    exact hmeasured

end Session
end ScriptHost
