/-
Declarations refine maps of texts.

Declarations find names and compare values by the identity of atoms, and their atoms are shared
with whoever else has interned the same texts.  `Sheets.answer` says what maps of texts reply to
the requests that one can make of declarations, and what they become; it knows of no atoms.  The
main results are:

* `since_set`, `since_remove`, `since_get`, `since_copy` — a declaration replies the same, and
  becomes the same;
* `Run.refines` — so it is after any run, in which others intern, release, append and drain, also
  in the midst of an edit, when its sink is told.

Design notes: somebody sits beside the scene and writes down every request that has returned.
Whoever changes a declaration has it to himself until the change returns, so a sink may make any
requests but of the declarations that are `busy`; a change counts from when it returns.
-/
import ScriptHost.Proofs.Holdings.Dealings
import ScriptHost.Proofs.Style.Family
import ScriptHost.Proofs.Style.Rendering

namespace ScriptHost.Style

open Holdings (Op)

/-! ### Maps of texts -/

/-- What one can ask of declarations. -/
inductive Request where
  | set (i : StyleId) (name value : String)
  | remove (i : StyleId) (name : String)
  | get (i : StyleId) (name : String)
  | copy (i source : StyleId)
  | size (i : StyleId)
  | css (i : StyleId)
  deriving DecidableEq

inductive Reply where
  | done
  | refused (fault : Fault)
  | text (x : String)
  | size (n : Nat)
  deriving DecidableEq

/-- The declarations that a request is about. -/
def Request.styles : Request → List StyleId
  | .set i _ _ | .remove i _ | .get i _ | .size i | .css i => [i]
  | .copy i source => [i, source]

/-- A request that has returned, with the fault, if any, for which commands were refused when it
was made. -/
structure Event where
  request : Request
  refusal : Option Fault
  reply : Reply
  deriving DecidableEq

namespace Sheets

/-- What maps of texts reply to a request and what they become.  Only what is a change can be
refused, and then nothing changes. -/
def answer (S : Sheets) (refusal : Option Fault) : Request → Reply × Sheets
  | .set i name value =>
    match if (S i).lookup (Text.camelCase name) = some value then none else refusal with
    | none => (.done, Function.update S i ((S i).set (Text.camelCase name) value))
    | some fault => (.refused fault, S)
  | .remove i name =>
    match if Text.camelCase name ∈ (S i).map (·.1) then refusal else none with
    | none =>
      (.text ((S i).get (Text.camelCase name)),
        Function.update S i ((S i).remove (Text.camelCase name)))
    | some fault => (.refused fault, S)
  | .get i name => (.text ((S i).get (Text.camelCase name)), S)
  | .copy i source => (.done, Function.update S i ((S i).copy (S source)))
  | .size i => (.size (S i).length, S)
  | .css i => (.text (S i).css, S)

/-- The requests, made one after the other, get these replies. -/
inductive Run : Sheets → List Event → Sheets → Prop
  | nil (S : Sheets) : Run S [] S
  | cons {S S' : Sheets} {e : Event} {h : List Event}
      (hreply : (S.answer e.refusal e.request).1 = e.reply)
      (run : Run (S.answer e.refusal e.request).2 h S') : Run S (e :: h) S'

variable {S S' S'' : Sheets} {e : Event} {h h' : List Event} {i : StyleId} {name value : String}

theorem Run.append (run : Run S h S') (run' : Run S' h' S'') : Run S (h ++ h') S'' := by
  induction run with
  | nil => exact run'
  | cons hreply _ ih => exact .cons hreply (ih run')

theorem Run.single (h : S.answer e.refusal e.request = (e.reply, S')) : Run S [e] S' := by
  obtain ⟨hreply, rfl⟩ := Prod.mk.inj h
  exact .cons hreply (.nil _)

theorem answer_eq_of_not_mem (refusal : Option Fault) {r : Request} (hi : i ∉ r.styles) :
    (S.answer refusal r).2 i = S i := by
  have hne : ∀ {j}, j ∈ r.styles → i ≠ j := fun hj he => hi (he ▸ hj)
  cases r with
  | set | remove =>
    rw [answer]
    split
    · exact Function.update_of_ne (hne List.mem_cons_self) _ _
    · rfl
  | copy => exact Function.update_of_ne (hne List.mem_cons_self) _ _
  | get | size | css => rfl

/-- Requests of other declarations leave a declaration as it is. -/
theorem Run.eq_of_not_mem (run : Run S h S') (hi : ∀ e ∈ h, i ∉ e.request.styles) :
    S' i = S i := by
  induction run with
  | nil => rfl
  | cons _ _ ih =>
    rw [List.forall_mem_cons] at hi
    rw [ih hi.2, answer_eq_of_not_mem _ hi.1]

theorem answer_set_of_lookup (hnodup : ((S i).map (·.1)).Nodup)
    (hl : (S i).lookup (Text.camelCase name) = some value) (refusal : Option Fault) :
    S.answer refusal (.set i name value) = (.done, S) := by
  rw [answer, if_pos hl]
  dsimp only
  rw [Texts.set_of_lookup hnodup hl, Function.update_eq_self]

theorem answer_set_of_refused (hl : (S i).lookup (Text.camelCase name) ≠ some value)
    (fault : Fault) : S.answer (some fault) (.set i name value) = (.refused fault, S) := by
  rw [answer, if_neg hl]

theorem answer_set_of_open (S : Sheets) (i : StyleId) (name value : String) :
    S.answer none (.set i name value) =
      (.done, Function.update S i ((S i).set (Text.camelCase name) value)) := by
  rw [answer, ite_self]

theorem answer_remove_of_unset (hl : (S i).lookup (Text.camelCase name) = none)
    (refusal : Option Fault) : S.answer refusal (.remove i name) = (.text "", S) := by
  have hn := lookup_eq_none_iff_not_mem.mp hl
  rw [answer, if_neg hn]
  dsimp only
  rw [Texts.remove_of_not_mem hn, Function.update_eq_self, Texts.get, hl]
  rfl

theorem answer_remove_of_refused (hl : (S i).lookup (Text.camelCase name) ≠ none)
    (fault : Fault) : S.answer (some fault) (.remove i name) = (.refused fault, S) := by
  have hn := not_not.mp (mt lookup_eq_none_iff_not_mem.mpr hl)
  rw [answer, if_pos hn]

theorem answer_remove_of_open (hl : (S i).lookup (Text.camelCase name) = some value) :
    S.answer none (.remove i name) =
      (.text value, Function.update S i ((S i).remove (Text.camelCase name))) := by
  rw [answer, ite_self]
  dsimp only
  rw [Texts.get, hl]
  rfl

end Sheets

/-! ### Requests in a scene -/

def Reply.ofResult : Except Fault Unit → Reply
  | .ok () => .done
  | .error fault => .refused fault

/-- The reply of a removal, by the texts of the atoms afterwards. -/
def Reply.ofRemoved (text : Atom → String) : Except Fault Atom → Reply
  | .ok old => .text (text old)
  | .error fault => .refused fault

namespace Scene

variable {ε : Type}

/-- Why commands are refused, if they are. -/
def refusal (s : Scene ε) : Option Fault :=
  if s.queue.closed then some (.contextDisposed s.queue.context) else none

/-- Makes a request of the declarations of a context. -/
def make (F : Family) (sink : ContextId → Scene ε → Scene ε) (s : Scene ε) :
    Request → Reply × Scene ε
  | .set i name value =>
    let (result, t) := (desk sink).set (F.declaration i) name value s
    (.ofResult result, t)
  | .remove i name =>
    let (result, t) := (desk sink).remove (F.declaration i) name s
    (.ofRemoved t.holdings.heap.text result, t)
  | .get i name =>
    let (value, t) := (desk sink).get (F.declaration i) name s
    (.text (t.holdings.heap.text value), t)
  | .copy i source => (.done, (desk sink).change (fun h => h.copyStyle i source) s)
  | .size i => (.size (s.holdings.properties i).length, s)
  | .css i => (.text ((s.holdings.properties i).css s.holdings.heap), s)

/-- Writes down a request that has returned. -/
def note (e : Event) (s : Scene (List Event × ε)) : Scene (List Event × ε) :=
  { s with rest := (s.rest.1 ++ [e], s.rest.2) }

/-- Makes a request, and writes it down. -/
def call (F : Family) (sink : ContextId → Scene (List Event × ε) → Scene (List Event × ε))
    (r : Request) (s : Scene (List Event × ε)) : Scene (List Event × ε) :=
  (s.make F sink r).2.note ⟨r, s.refusal, (s.make F sink r).1⟩

theorem refusal_of_open {s : Scene ε} (h : s.queue.closed = false) : s.refusal = none :=
  if_neg (by rw [h]; decide)

theorem refusal_of_closed {s : Scene ε} (h : s.queue.closed = true) :
    s.refusal = some (.contextDisposed s.queue.context) := if_pos h

/-- Reading resolves the name, takes the value, and lets go of the name. -/
theorem get_steps {s : Scene ε} (hs : s.holdings.Sound) {d : Declaration}
    (hlt : d.names < s.holdings.caches.size) (sink : ContextId → Scene ε → Scene ε)
    (name : String) :
    let key := (s.holdings.resolve d.names d.table name).1
    let u := s.perform (.resolve d.names d.table name)
    let answer := (desk sink).get d name s
    ∃ op : Op, op.Ready u.holdings ∧ (∀ d, Leaves d op) ∧
      (op.apply u.holdings).hand = answer.1 :: key :: s.holdings.hand ∧
      answer.2 = (u.perform op).perform (.letGo key) ∧
      answer.2.holdings.heap.text answer.1 =
        (((u.holdings.properties d.style).value? key).map u.holdings.heap.text).getD "" := by
  have hsound : (s.perform (.resolve d.names d.table name)).holdings.Sound :=
    (Op.resolve d.names d.table name).sound_apply hs hlt
  obtain ⟨op, hready, hleaves, hop, hhand, htext⟩ :=
    takeValue_text hsound d.style (s.holdings.resolve d.names d.table name).1 d.table
  have hget : ((desk sink).get d name s).2 =
      ((s.perform (.resolve d.names d.table name)).perform op).perform
        (.letGo (s.holdings.resolve d.names d.table name).1) :=
    congrArg (fun h : Holdings =>
      { s with holdings := h.letGo (s.holdings.resolve d.names d.table name).1 }) hop
  refine ⟨op, hready, hleaves, hhand, hget, ?_⟩
  have hheld := Holdings.mem_held_of_hand (hhand ▸ List.mem_cons_self)
  rw [← htext, hget]
  exact (op.sound_apply hsound hready).text_apply (.letGo _) hheld

end Scene

/-- The declarations that the request is about are there and nobody is changing one of them. -/
def Request.Free {ε : Type} (r : Request) (F : Family) (busy : List StyleId) (s : Scene ε) : Prop :=
  r.styles.Nodup ∧ ∀ i ∈ r.styles, i ∈ F ∧ i ∉ busy ∧ i < s.holdings.styles.size

namespace Family

variable {ε : Type} {F : Family} {busy : List StyleId} {kept : List Atom} {S S' S'' : Sheets}
  {h h' : List Event} {s t u : Scene (List Event × ε)}

/-! ### Runs -/

/-- What others do, while atoms are kept in the hand: anything that has to do with no atoms, and
any operation that leaves the declarations alone. -/
inductive Aside (F : Family) (kept : List Atom) :
    Scene (List Event × ε) → Scene (List Event × ε) → Prop
  | elsewhere {s t : Scene (List Event × ε)} (hholdings : t.holdings = s.holdings)
      (hnoted : t.rest.1 = s.rest.1) : Aside F kept s t
  | perform (op : Op) (s : Scene (List Event × ε)) (hready : op.Ready s.holdings)
      (hleaves : F.Leaves op)
      (hkept : ∀ a, kept.count a ≤ (op.apply s.holdings).hand.count a) :
      Aside F kept s (s.perform op)

/-- Requests and what others do.  Each request has a sink of its own, and whatever a sink does is
a run again, in which the declarations of the request are busy. -/
inductive Run (F : Family) : List StyleId → List Atom →
    Scene (List Event × ε) → Scene (List Event × ε) → Prop
  | nil {busy : List StyleId} {kept : List Atom} (s : Scene (List Event × ε)) : Run F busy kept s s
  | aside {busy : List StyleId} {kept : List Atom} {s t u : Scene (List Event × ε)}
      (h : Aside F kept s t) (run : Run F busy kept t u) : Run F busy kept s u
  | call {busy : List StyleId} {kept : List Atom} {s u : Scene (List Event × ε)} {r : Request}
      {sink : ContextId → Scene (List Event × ε) → Scene (List Event × ε)}
      (hfree : r.Free F busy s)
      (hsink : ∀ context s', Run F (r.styles ++ busy) s'.holdings.hand s' (sink context s'))
      (run : Run F busy kept (s.call F sink r) u) : Run F busy kept s u

/-- What has become of a scene: the requests that have returned meanwhile, none of them of a busy
declaration, had the replies of maps of texts, and the declarations are as these by now. -/
structure Since (F : Family) (busy : List StyleId) (kept : List Atom) (S : Sheets)
    (s : Scene (List Event × ε)) (h : List Event) (S' : Sheets) (t : Scene (List Event × ε)) :
    Prop where
  noted : t.rest.1 = s.rest.1 ++ h
  free : ∀ e ∈ h, ∀ i ∈ busy, i ∉ e.request.styles
  replies : Sheets.Run S h S'
  sheets : Kept F S' t.holdings
  is_atom : s.holdings.heap.Extends t.holdings.heap
  styles : s.holdings.styles.size ≤ t.holdings.styles.size
  hand : ∀ a, kept.count a ≤ t.holdings.hand.count a

namespace Since

variable {kept' : List Atom}

theorem of_eq (hk : Kept F S s.holdings) (hholdings : t.holdings = s.holdings)
    (hnoted : t.rest.1 = s.rest.1) (hkept : ∀ a, kept.count a ≤ s.holdings.hand.count a) :
    Since F busy kept S s [] S t where
  noted := by rw [hnoted, List.append_nil]
  free := fun _ he => absurd he List.not_mem_nil
  replies := .nil S
  sheets := hholdings ▸ hk
  is_atom := hholdings ▸ .refl _
  styles := Nat.le_of_eq (by rw [hholdings])
  hand := hholdings ▸ hkept

theorem trans (hst : Since F busy kept S s h S' t) (htu : Since F busy kept' S' t h' S'' u) :
    Since F busy kept' S s (h ++ h') S'' u where
  noted := by rw [htu.noted, hst.noted, List.append_assoc]
  free := List.forall_mem_append.mpr ⟨hst.free, htu.free⟩
  replies := hst.replies.append htu.replies
  sheets := htu.sheets
  is_atom := hst.is_atom.trans htu.is_atom
  styles := Nat.le_trans hst.styles htu.styles
  hand := htu.hand

theorem perform {op : Op} (hk : Kept F S s.holdings) (hready : op.Ready s.holdings)
    (hleaves : F.Leaves op) (hkept : ∀ a, kept.count a ≤ (op.apply s.holdings).hand.count a) :
    Since F busy kept S s [] S (s.perform op) where
  noted := (List.append_nil _).symm
  free := fun _ he => absurd he List.not_mem_nil
  replies := .nil S
  sheets := hk.apply op hready hleaves
  is_atom := op.extends_apply s.holdings
  styles := styles_size_le op
  hand := hkept

/-- Less is busy than was. -/
theorem of_append {js : List StyleId} (hst : Since F (js ++ busy) kept S s h S' t) :
    Since F busy kept S s h S' t where
  noted := hst.noted
  free := fun e he i hi => hst.free e he i (List.mem_append_right js hi)
  replies := hst.replies
  sheets := hst.sheets
  is_atom := hst.is_atom
  styles := hst.styles
  hand := hst.hand

/-- What a request changes takes effect, and the request is written down. -/
theorem effect {e : Event} (hanswer : S.answer e.refusal e.request = (e.reply, S'))
    (hfree : ∀ i ∈ busy, i ∉ e.request.styles) (hk : Kept F S' t.holdings)
    (hnoted : t.rest = s.rest) (his : s.holdings.heap.Extends t.holdings.heap)
    (hstyles : s.holdings.styles.size ≤ t.holdings.styles.size)
    (hkept : ∀ a, kept.count a ≤ t.holdings.hand.count a) :
    Since F busy kept S s [e] S' (t.note e) where
  noted := by
    show t.rest.1 ++ [e] = _
    rw [hnoted]
  free := List.forall_mem_singleton.mpr hfree
  replies := .single hanswer
  sheets := hk
  is_atom := his
  styles := hstyles
  hand := hkept

/-- A request that changes nothing. -/
theorem note {e : Event} (hanswer : S.answer e.refusal e.request = (e.reply, S))
    (hfree : ∀ i ∈ busy, i ∉ e.request.styles) (hk : Kept F S s.holdings)
    (hkept : ∀ a, kept.count a ≤ s.holdings.hand.count a) :
    Since F busy kept S s [e] S (s.note e) :=
  .effect hanswer hfree hk rfl (.refl _) (Nat.le_refl _) hkept

end Since

theorem Aside.since (h : F.Aside kept s t) (hk : Kept F S s.holdings)
    (hkept : ∀ a, kept.count a ≤ s.holdings.hand.count a) : Since F busy kept S s [] S t := by
  cases h with
  | elsewhere hholdings hnoted => exact .of_eq hk hholdings hnoted hkept
  | perform op _ hready hleaves hkept' => exact .perform hk hready hleaves hkept'

/-! ### Sinks -/

/-- A sink that keeps what is in the hand, and the declarations as they should be. -/
def Tells (F : Family) (busy : List StyleId)
    (sink : ContextId → Scene (List Event × ε) → Scene (List Event × ε)) : Prop :=
  ∀ context s S, Kept F S s.holdings →
    ∃ h S', Since F busy s.holdings.hand S s h S' (sink context s)

variable {sink : ContextId → Scene (List Event × ε) → Scene (List Event × ε)} {i : StyleId}
  {name value : String} {key v : Atom} {rest : List Atom}

/-- From when a command is appended until its sink has been told. -/
theorem since_append {c : Command} (hk : Kept F S s.holdings) (hsink : Tells F busy sink)
    (happend : (Scene.outlet sink).append c s = (.ok (), t)) :
    ∃ h S', Since F busy s.holdings.hand S s h S' t := by
  have hopen := Scene.open_of_append happend
  obtain ⟨-, hholdings⟩ := Scene.stream_append_of_open hopen c
  have happended : ((Scene.outlet Scene.quiet).append c s).2 =
      { s with queue := { s.queue with pending := s.queue.pending.push c },
               logs := s.logs ++ [.commandAppended s.queue.context c.kind c.target] } :=
    Outlet.silent_append_of_open (w := Scene.outlet Scene.quiet) hopen c
  have hnoted : ((Scene.outlet Scene.quiet).append c s).2.rest.1 = s.rest.1 := by rw [happended]
  have hquiet : Since F busy s.holdings.hand S s [] S ((Scene.outlet Scene.quiet).append c s).2 :=
    .of_eq hk hholdings hnoted fun _ => Nat.le_refl _
  have ht : ((Scene.outlet sink).append c s).2 = t := congrArg Prod.snd happend
  rcases Outlet.append_snd (Scene.outlet sink) c s with hsnd | hsnd
  · rw [← ht, hsnd]
    exact ⟨[], S, hquiet⟩
  · rw [← ht, hsnd]
    obtain ⟨h, S', htold⟩ := hsink s.queue.context _ S hquiet.sheets
    rw [hholdings] at htold
    exact ⟨h, S', hquiet.trans htold⟩

theorem unbusy (hfree : i ∉ busy) : ∀ j ∈ busy, j ∉ [i] := by
  intro j hj hji
  exact hfree (List.mem_singleton.mp hji ▸ hj)

/-- Every request by a name begins with resolving it. -/
theorem since_resolve (busy : List StyleId) (hk : Kept F S s.holdings) (name : String) :
    Since F busy s.holdings.hand S s [] S (s.perform (.resolve F.names F.table name)) :=
  .perform hk hk.names_lt (fun _ _ _ => rfl) fun _ => List.count_le_count_cons

/-! ### Setting -/

/-- What was in the hand below two atoms is still there without them. -/
theorem count_le_erase_erase {hand : List Atom}
    (hcount : ∀ a, (v :: key :: rest).count a ≤ hand.count a) (a : Atom) :
    rest.count a ≤ ((hand.erase key).erase v).count a := by
  obtain ⟨hkey, hv⟩ := mem_of_kept hcount
  have hle := hcount a
  have h₁ := count_erase_add hkey a
  have h₂ := count_erase_add hv a
  rw [count_cons_eq v (key :: rest), count_cons_eq key rest] at hle
  omega

/-- Every outcome of `set`, once the atoms of name and value are in the hand. -/
theorem since_setOutcome {r : Except Fault Unit × Scene (List Event × ε)}
    (hk : Kept F S s.holdings) (hi : i ∈ F) (hlt : i < s.holdings.styles.size) (hfree : i ∉ busy)
    (hsink : Tells F ([i] ++ busy) sink)
    (hx : s.holdings.heap.Is key F.table (Text.camelCase name))
    (hy : s.holdings.heap.Is v F.table value) (hhand : s.holdings.hand = v :: key :: rest)
    (h : Desk.SetOutcome (Scene.desk sink) (F.declaration i) key v s r) :
    ∃ h S', Since F busy rest S s h S' (r.2.note ⟨.set i name value, s.refusal, .ofResult r.1⟩) := by
  have hcount : ∀ a, (v :: key :: rest).count a ≤ s.holdings.hand.count a :=
    fun a => Nat.le_of_eq (congrArg (List.count a) hhand.symm)
  obtain ⟨hkey, hvalue⟩ := mem_of_kept hcount
  have hsame : (s.holdings.properties i).value? key = some v ↔
      (S i).lookup (Text.camelCase name) = some value :=
    hk.value?_eq_some_iff hi hx (hk.sound.live (Holdings.mem_held_of_hand hkey)) hy
      (hk.sound.live (Holdings.mem_held_of_hand (List.mem_of_mem_erase hvalue)))
  -- without a change both atoms are let go
  have hkeyGone : Since F busy [] S s [] S (s.perform (.letGo key)) :=
    .perform hk hkey (fun _ _ => trivial) fun _ => Nat.zero_le _
  have hletGo : Since F busy rest S s [] S ((s.perform (.letGo key)).perform (.letGo v)) :=
    hkeyGone.trans (.perform hkeyGone.sheets hvalue (fun _ _ => trivial)
      (count_le_erase_erase hcount))
  cases h with
  | same hvalue? =>
    refine ⟨_, S, .effect ?_ (unbusy hfree) hletGo.sheets rfl hletGo.is_atom
      hletGo.styles hletGo.hand⟩
    exact Sheets.answer_set_of_lookup (hk.nodup hi) (hsame.mp hvalue?) _
  | @refused s₃ fault hvalue? happend =>
    obtain ⟨hclosed, rfl, rfl⟩ := Scene.closed_of_append happend
    refine ⟨_, S, .effect ?_ (unbusy hfree) hletGo.sheets rfl hletGo.is_atom
      hletGo.styles hletGo.hand⟩
    rw [Scene.refusal_of_closed hclosed]
    exact Sheets.answer_set_of_refused (mt hsame.mpr hvalue?) _
  | @made s₃ hvalue? happend =>
    obtain ⟨h, S₃, htold⟩ := since_append hk hsink happend
    rw [hhand] at htold
    -- the hand still holds both atoms, so they are still the atoms of these texts
    obtain ⟨hkey₃, hvalue₃⟩ := mem_of_kept htold.hand
    have hassign := htold.sheets.assign hi (Nat.lt_of_lt_of_le hlt htold.styles)
      (htold.is_atom _ _ _ hx) (htold.is_atom _ _ _ hy) hkey₃ hvalue₃
    refine ⟨_, _, htold.of_append.trans (.effect ?_ (unbusy hfree) hassign rfl
      ((Op.assign i key v).extends_apply s₃.holdings) (styles_size_le (.assign i key v)) ?_)⟩
    · rw [Scene.refusal_of_open (Scene.open_of_append happend)]
      exact Sheets.answer_set_of_open S₃ i name value
    · intro a
      show rest.count a ≤ (s₃.holdings.assign i key v).hand.count a
      rw [Holdings.hand_assign]
      exact count_le_erase_erase htold.hand a

theorem since_set (hk : Kept F S s.holdings) (hi : i ∈ F) (hlt : i < s.holdings.styles.size)
    (hfree : i ∉ busy) (hsink : Tells F ([i] ++ busy) sink) (name value : String) :
    ∃ h S', Since F busy s.holdings.hand S s h S' (s.call F sink (.set i name value)) := by
  obtain ⟨key, s₁, v, s₂, hkey, hvalue, houtcome⟩ :=
    (Scene.desk sink).set_outcome (F.declaration i) name value s
  obtain ⟨rfl, rfl⟩ := Prod.mk.inj hkey
  obtain ⟨rfl, rfl⟩ := Prod.mk.inj hvalue
  -- up to the append an edit performs two operations of its own
  have h₁ := since_resolve busy hk name
  have h₂ : Since F busy s.holdings.hand S s [] S
      ((s.perform (.resolve F.names F.table name)).perform (.take F.table value)) :=
    h₁.trans (.perform h₁.sheets trivial (fun _ _ => trivial) fun a =>
      Nat.le_trans (h₁.hand a) List.count_le_count_cons)
  have hx := (Op.take F.table value).extends_apply _ _ _ _ (resolve_is_of_names hk.names name)
  have hy := Atom.Heap.intern_is (s.perform (.resolve F.names F.table name)).holdings.heap
    F.table value
  have hlt₂ := Nat.lt_of_lt_of_le hlt h₂.styles
  obtain ⟨h, S', hset⟩ := since_setOutcome h₂.sheets hi hlt₂ hfree hsink hx hy rfl houtcome
  exact ⟨h, S', h₂.trans hset⟩

/-! ### Removing -/

/-- What is removed is the value that was set. -/
theorem unassign_fst (s : Holdings) (i : StyleId) (name : Atom) :
    (s.unassign i name).1 = (s.properties i).value? name := by
  rw [Holdings.unassign]
  dsimp only
  split
  next v hv => exact hv.symm
  next hnone => exact hnone.symm

/-- What was in the hand below an atom is still there without it. -/
theorem count_le_erase {hand : List Atom}
    (hcount : ∀ a, (key :: rest).count a ≤ hand.count a) :
    key ∈ hand ∧ ∀ a, rest.count a ≤ (hand.erase key).count a := by
  have hkey : key ∈ hand :=
    List.count_pos_iff.mp
      (Nat.lt_of_lt_of_le (List.count_pos_iff.mpr List.mem_cons_self) (hcount key))
  refine ⟨hkey, fun a => ?_⟩
  have hle := hcount a
  have herase := count_erase_add hkey a
  rw [count_cons_eq key rest] at hle
  omega

/-- After the command that removes a property, and whatever followed from it, the property is
still there to be removed. -/
theorem since_removing {c : Command} (hk : Kept F S s.holdings) (hi : i ∈ F)
    (hsink : Tells F ([i] ++ busy) sink)
    (hx : s.holdings.heap.Is key F.table (Text.camelCase name))
    (hhand : s.holdings.hand = key :: rest)
    (hset : (s.holdings.properties i).value? key ≠ none)
    (happend : (Scene.outlet sink).append c s = (.ok (), t)) :
    ∃ h S' v, Since F busy rest S s h S' (t.perform (.letGo key)) ∧
      ((t.holdings.letGo key).properties i).value? key = some v ∧
      (S' i).lookup (Text.camelCase name) = some ((t.holdings.letGo key).heap.text v) := by
  have hkey : key ∈ s.holdings.hand := hhand ▸ List.mem_cons_self
  have hlive := hk.sound.live (Holdings.mem_held_of_hand hkey)
  obtain ⟨h, S', htold⟩ := since_append hk hsink happend
  rw [hhand] at htold
  obtain ⟨hkey', hrest⟩ := count_le_erase htold.hand
  have hlive' := htold.sheets.sound.live (Holdings.mem_held_of_hand hkey')
  -- nobody else had the declaration
  have hsame : S' i = S i := htold.replies.eq_of_not_mem fun e he => htold.free e he i (by simp)
  have hlookup' := htold.sheets.lookup_eq hi (htold.is_atom _ _ _ hx) hlive'
  rw [hsame, hk.lookup_eq hi hx hlive] at hlookup'
  obtain ⟨v, hv⟩ : ∃ v, (t.holdings.properties i).value? key = some v := by
    refine Option.ne_none_iff_exists'.mp fun hnone => hset ?_
    rw [hnone] at hlookup'
    exact Option.map_eq_none_iff.mp hlookup'
  have hletGo : Since F busy rest S' t [] S' (t.perform (.letGo key)) :=
    .perform htold.sheets hkey' (fun _ _ => trivial) hrest
  refine ⟨_, S', v, htold.of_append.trans hletGo, hv, ?_⟩
  have hheld := (Holdings.mem_held_of_property (Properties.mem_of_value? hv)).2
  rw [hsame, hk.lookup_eq hi hx hlive, hlookup', hv, Option.map_some]
  exact congrArg some (htold.sheets.sound.text_apply (.letGo key) hheld).symm

/-- Every outcome of `remove`, once the atom of the name is in the hand. -/
theorem since_removeOutcome {r : Except Fault Atom × Scene (List Event × ε)}
    (hk : Kept F S s.holdings) (hi : i ∈ F) (hlt : i < s.holdings.styles.size) (hfree : i ∉ busy)
    (hsink : Tells F ([i] ++ busy) sink)
    (hx : s.holdings.heap.Is key F.table (Text.camelCase name))
    (hhand : s.holdings.hand = key :: rest)
    (h : Desk.RemoveOutcome (Scene.desk sink) (F.declaration i) key s r) :
    ∃ h S', Since F busy rest S s h S'
      (r.2.note ⟨.remove i name, s.refusal, .ofRemoved r.2.holdings.heap.text r.1⟩) := by
  have hcount : ∀ a, (key :: rest).count a ≤ s.holdings.hand.count a :=
    fun a => Nat.le_of_eq (congrArg (List.count a) hhand.symm)
  obtain ⟨hkey, hrest⟩ := count_le_erase hcount
  have hlookup := hk.lookup_eq hi hx (hk.sound.live (Holdings.mem_held_of_hand hkey))
  have hletGo : Since F busy rest S s [] S (s.perform (.letGo key)) :=
    .perform hk hkey (fun _ _ => trivial) hrest
  cases h with
  | @unset old s' hvalue? hempty =>
    obtain ⟨rfl, rfl⟩ := Prod.mk.inj hempty
    obtain ⟨hold, hhand'⟩ := hletGo.sheets.sound.takeEmpty_is F.table
    have htake : Since F busy rest S s [] S
        ((s.perform (.letGo key)).perform (.takeEmpty F.table)) := by
      refine hletGo.trans (.perform hletGo.sheets trivial (fun _ _ => trivial) fun a => ?_)
      show rest.count a ≤ ((s.perform (.letGo key)).holdings.takeEmpty F.table).2.hand.count a
      rw [hhand']
      exact Nat.le_trans (hrest a) List.count_le_count_cons
    refine ⟨_, S, htake.trans (.note ?_ (unbusy hfree) htake.sheets htake.hand)⟩
    have hunset : (s.holdings.properties i).value? key = none := hvalue?
    rw [hunset] at hlookup
    have hreply := Sheets.answer_remove_of_unset hlookup s.refusal
    rwa [← hold.text_eq] at hreply
  | @refused s₃ fault hvalue? happend =>
    obtain ⟨hclosed, rfl, rfl⟩ := Scene.closed_of_append happend
    refine ⟨_, S, .effect ?_ (unbusy hfree) hletGo.sheets rfl hletGo.is_atom
      hletGo.styles hletGo.hand⟩
    rw [Scene.refusal_of_closed hclosed]
    refine Sheets.answer_remove_of_refused (fun hnone => hvalue? ?_) _
    rw [hlookup] at hnone
    exact Option.map_eq_none_iff.mp hnone
  | @made old s₃ s₄ hvalue? happend hremove =>
    obtain ⟨h, S₃, v, hs₃, hv, hlookup₃⟩ := since_removing hk hi hsink hx hhand hvalue? happend
    have hfst := (unassign_fst (s₃.holdings.letGo key) i key).trans hv
    obtain ⟨hold, rfl⟩ := Prod.mk.inj hremove
    obtain rfl : v = old := Option.some.inj (hfst.symm.trans hold)
    have hlt₃ := Nat.lt_of_lt_of_le hlt hs₃.styles
    have hunassign := hs₃.sheets.unassign hi hlt₃ (hs₃.is_atom _ _ _ hx) hv
    refine ⟨_, _, hs₃.trans (.effect ?_ (unbusy hfree) hunassign rfl
      ((Op.unassign i key).extends_apply (s₃.holdings.letGo key))
      (styles_size_le (.unassign i key)) fun a => ?_)⟩
    · -- the value passes into the hand, so it keeps its text
      have hheld := (Holdings.mem_held_of_property (Properties.mem_of_value? hv)).2
      have htext : ((s₃.holdings.letGo key).unassign i key).2.heap.text v =
          (s₃.holdings.letGo key).heap.text v :=
        hs₃.sheets.sound.text_apply (.unassign i key) hheld
      rw [← htext] at hlookup₃
      rw [Scene.refusal_of_open (Scene.open_of_append happend)]
      exact Sheets.answer_remove_of_open hlookup₃
    · show rest.count a ≤ ((s₃.holdings.letGo key).unassign i key).2.hand.count a
      rw [Holdings.hand_unassign, hfst]
      exact Nat.le_trans (hs₃.hand a) List.count_le_count_cons
  | @gone old s₃ s₄ s₅ hvalue? happend hremove _ =>
    obtain ⟨_, _, v, _, hv, _⟩ := since_removing hk hi hsink hx hhand hvalue? happend
    have hnone : ((s₃.holdings.letGo key).unassign i key).1 = none := congrArg Prod.fst hremove
    rw [unassign_fst, hv] at hnone
    exact absurd hnone (Option.some_ne_none v)

theorem since_remove (hk : Kept F S s.holdings) (hi : i ∈ F) (hlt : i < s.holdings.styles.size)
    (hfree : i ∉ busy) (hsink : Tells F ([i] ++ busy) sink) (name : String) :
    ∃ h S', Since F busy s.holdings.hand S s h S' (s.call F sink (.remove i name)) := by
  obtain ⟨key, s₁, hkey, houtcome⟩ := (Scene.desk sink).remove_outcome (F.declaration i) name s
  obtain ⟨rfl, rfl⟩ := Prod.mk.inj hkey
  have h₁ := since_resolve busy hk name
  have hlt₁ := Nat.lt_of_lt_of_le hlt h₁.styles
  obtain ⟨h, S', hremove⟩ := since_removeOutcome h₁.sheets hi hlt₁ hfree hsink
    (resolve_is_of_names hk.names name) rfl houtcome
  exact ⟨h, S', h₁.trans hremove⟩

/-! ### Reading and copying -/

theorem since_get (hk : Kept F S s.holdings) (hi : i ∈ F) (hfree : i ∉ busy)
    (sink : ContextId → Scene (List Event × ε) → Scene (List Event × ε)) (name : String) :
    ∃ h, Since F busy s.holdings.hand S s h S (s.call F sink (.get i name)) := by
  obtain ⟨op, hready, hleaves, hhand, hget, htext⟩ :=
    Scene.get_steps hk.sound (d := F.declaration i) hk.names_lt sink name
  have h₁ := since_resolve busy hk name
  have hkept : ∀ a, ((s.holdings.resolve F.names F.table name).1 :: s.holdings.hand).count a ≤
      (op.apply (s.perform (.resolve F.names F.table name)).holdings).hand.count a := by
    intro a
    exact Nat.le_trans List.count_le_count_cons
      (Nat.le_of_eq (congrArg (List.count a) hhand.symm))
  obtain ⟨hkey, hrest⟩ := count_le_erase hkept
  have h₂ := h₁.trans (.perform h₁.sheets hready (fun _ _ => hleaves _) hkept)
  have h₃ : Since F busy s.holdings.hand S s [] S
      (((s.perform (.resolve F.names F.table name)).perform op).perform
        (.letGo (s.holdings.resolve F.names F.table name).1)) :=
    h₂.trans (.perform h₂.sheets hkey (fun _ _ => trivial) hrest)
  -- the name has been resolved to the live atom of its text
  have hkey₁ : (s.holdings.resolve F.names F.table name).1 ∈
      (s.perform (.resolve F.names F.table name)).holdings.hand := List.mem_cons_self
  have hlookup := h₁.sheets.lookup_eq hi (resolve_is_of_names hk.names name)
    (h₁.sheets.sound.live (Holdings.mem_held_of_hand hkey₁))
  have hvalue : ((Scene.desk sink).get (F.declaration i) name s).2.holdings.heap.text
      ((Scene.desk sink).get (F.declaration i) name s).1 = (S i).get (Text.camelCase name) :=
    htext.trans (congrArg (·.getD "") hlookup.symm)
  rw [Scene.call, Scene.make]
  dsimp only
  rw [hvalue, hget]
  exact ⟨_, h₃.trans (.note rfl (unbusy hfree) h₃.sheets h₃.hand)⟩

theorem since_copy {source : StyleId} (hk : Kept F S s.holdings) (hi : i ∈ F) (hsource : source ∈ F)
    (hne : i ≠ source) (hlt : i < s.holdings.styles.size) (hfree : i ∉ busy)
    (hfree' : source ∉ busy)
    (sink : ContextId → Scene (List Event × ε) → Scene (List Event × ε)) :
    ∃ h S', Since F busy s.holdings.hand S s h S' (s.call F sink (.copy i source)) := by
  have hwhole : Holdings.Whole s.holdings (s.holdings.copyStyle i source) :=
    Holdings.copyProperties_whole hne hlt fun _ hp => hp
  refine ⟨_, _, .effect rfl (fun j hj hji => ?_) (hk.copyStyle hi hsource hne hlt) rfl
    hwhole.steps.extends_heap hwhole.steps.styles_size_le fun a =>
      Nat.le_of_eq (hwhole.hand.count_eq a).symm⟩
  rcases List.mem_cons.mp hji with rfl | hji
  · exact hfree hj
  · exact hfree' (List.mem_singleton.mp hji ▸ hj)

/-! ### Requests and runs -/

theorem since_call {r : Request} (hk : Kept F S s.holdings) (hfree : r.Free F busy s)
    (hsink : Tells F (r.styles ++ busy) sink) :
    ∃ h S', Since F busy s.holdings.hand S s h S' (s.call F sink r) := by
  obtain ⟨hnodup, hstyles⟩ := hfree
  have hhand : ∀ a, s.holdings.hand.count a ≤ s.holdings.hand.count a := fun _ => Nat.le_refl _
  cases r with
  | set i name value =>
    obtain ⟨hi, hfree, hlt⟩ := hstyles i List.mem_cons_self
    exact since_set hk hi hlt hfree hsink name value
  | remove i name =>
    obtain ⟨hi, hfree, hlt⟩ := hstyles i List.mem_cons_self
    exact since_remove hk hi hlt hfree hsink name
  | get i name =>
    obtain ⟨hi, hfree, -⟩ := hstyles i List.mem_cons_self
    obtain ⟨h, hget⟩ := since_get hk hi hfree sink name
    exact ⟨h, S, hget⟩
  | copy i source =>
    obtain ⟨hi, hfree, hlt⟩ := hstyles i List.mem_cons_self
    obtain ⟨hsource, hfree', -⟩ := hstyles source (List.mem_cons_of_mem _ List.mem_cons_self)
    have hne : i ≠ source := by
      rintro rfl
      exact (List.nodup_cons.mp hnodup).1 List.mem_cons_self
    exact since_copy hk hi hsource hne hlt hfree hfree' sink
  | size i =>
    obtain ⟨hi, hfree, -⟩ := hstyles i List.mem_cons_self
    refine ⟨_, S, .note ?_ (unbusy hfree) hk hhand⟩
    show (Reply.size (S i).length, S) = (Reply.size (s.holdings.properties i).length, S)
    rw [← hk.sheets i hi, sheet, Properties.texts, List.length_map]
  | css i =>
    obtain ⟨hi, hfree, -⟩ := hstyles i List.mem_cons_self
    refine ⟨_, S, .note ?_ (unbusy hfree) hk hhand⟩
    show (Reply.text (S i).css, S) =
      (Reply.text ((s.holdings.properties i).css s.holdings.heap), S)
    rw [← hk.sheets i hi, sheet, Properties.css_eq]

theorem Run.since (run : F.Run busy kept s t) (hk : Kept F S s.holdings)
    (hkept : ∀ a, kept.count a ≤ s.holdings.hand.count a) :
    ∃ h S', Since F busy kept S s h S' t := by
  induction run generalizing S with
  | nil => exact ⟨[], S, .of_eq hk rfl rfl hkept⟩
  | @aside busy kept s t u h _ ih =>
    have hstep : Since F busy kept S s [] S t := h.since hk hkept
    obtain ⟨h', S', hrest⟩ := ih hstep.sheets hstep.hand
    exact ⟨h', S', hstep.trans hrest⟩
  | call hfree _ _ ihsink ih =>
    obtain ⟨h, S₁, hcall⟩ := since_call hk hfree fun context s' S' hk' =>
      ihsink context s' hk' fun _ => Nat.le_refl _
    obtain ⟨h', S', hrest⟩ := ih hcall.sheets fun a => Nat.le_trans (hkept a) (hcall.hand a)
    exact ⟨h ++ h', S', hcall.trans hrest⟩

/-- A context with any history, in which nobody has asked anything of the declarations so far. -/
structure Fresh (F : Family) (s : Scene (List Event × ε)) : Prop where
  history : Relation.ReflTransGen
    (fun h h' => ∃ op : Op, op.Ready h ∧ F.Leaves op ∧ h' = op.apply h) {} s.holdings
  names_lt : F.names < s.holdings.caches.size
  noted : s.rest.1 = []

/-- Operations that are ready at any time and change no declaration make a fresh context. -/
theorem Fresh.of_ops {ops : List Op} (hops : ∀ op ∈ ops, (∀ h, op.Ready h) ∧ ∀ d, Style.Leaves d op)
    (hs : s.holdings = ops.foldl (fun h op => op.apply h) {})
    (hlt : F.names < s.holdings.caches.size) (hnoted : s.rest.1 = []) : Fresh F s := by
  refine ⟨hs ▸ ?_, hlt, hnoted⟩
  clear hs
  generalize ({} : Holdings) = first
  induction ops generalizing first with
  | nil => exact .refl
  | cons op ops ih =>
    obtain ⟨⟨hready, hleaves⟩, hrest⟩ := List.forall_mem_cons.mp hops
    exact .head ⟨op, hready first, fun _ _ => hleaves _, rfl⟩ (ih hrest (op.apply first))

theorem Fresh.sheets (hs : Fresh F s) : Kept F (fun _ => []) s.holdings := by
  have hall : s.holdings.Sound ∧ (∀ i ∈ F, s.holdings.properties i = []) ∧
      ∀ p ∈ s.holdings.cache F.names, s.holdings.heap.Is p.2 F.table (Text.camelCase p.1) := by
    have hhistory := hs.history
    generalize s.holdings = holdings at hhistory
    induction hhistory with
    | refl => exact ⟨Holdings.sound_empty, by simp [Holdings.properties], by simp [Holdings.cache]⟩
    | @tail h₁ h₂ _ hop ih =>
      obtain ⟨op, hready, hleaves, rfl⟩ := hop
      obtain ⟨hsound, hproperties, hcache⟩ := ih
      obtain ⟨j, hj⟩ := F.nonempty
      refine ⟨op.sound_apply hsound hready, fun i hi => ?_, names_apply (hleaves j hj) hcache⟩
      exact (properties_apply (hleaves i hi)).trans (hproperties i hi)
  obtain ⟨hsound, hproperties, hcache⟩ := hall
  exact .of_new hsound hs.names_lt hcache hproperties

/-- The declarations cannot be told from maps of texts. -/
structure Mirrored (F : Family) (s : Scene (List Event × ε)) : Prop where
  /-- Empty maps of texts would have given the same replies to the same requests, and would be by
  now what the declarations are by their texts. -/
  replies : ∃ S, Sheets.Run (fun _ => []) s.rest.1 S ∧ ∀ i ∈ F, sheet s.holdings i = S i
  /-- No two names of a declaration have the same text. -/
  nodup : ∀ i ∈ F, ((sheet s.holdings i).map (·.1)).Nodup
  /-- Copying appends no command, and leaves every declaration but the one copied to. -/
  copy : ∀ sink i source, (Request.copy i source).Free F [] s →
    let t := (s.make F sink (.copy i source)).2
    t.queue = s.queue ∧ t.received = s.received ∧
      ∀ j ∈ F, j ≠ i → sheet t.holdings j = sheet s.holdings j

/-- **Declarations refine maps of texts.**  After any run from a fresh context on, with whatever
others do meanwhile and whatever sinks do when they are told, the declarations have given the
replies of maps of texts and are as these. -/
theorem Run.refines (hs : Fresh F s) (run : F.Run [] [] s t) : Mirrored F t := by
  obtain ⟨h, S, hst⟩ := run.since hs.sheets fun _ => Nat.zero_le _
  have hnoted : t.rest.1 = h := by rw [hst.noted, hs.noted, List.nil_append]
  refine ⟨⟨S, hnoted ▸ hst.replies, hst.sheets.sheets⟩, fun i hi => ?_, ?_⟩
  · rw [hst.sheets.sheets i hi]
    exact hst.sheets.nodup hi
  · intro sink i source hfree
    obtain ⟨hnodup, hstyles⟩ := hfree
    obtain ⟨hi, -, hlt⟩ := hstyles i List.mem_cons_self
    obtain ⟨hsource, -, -⟩ := hstyles source (List.mem_cons_of_mem _ List.mem_cons_self)
    have hne : i ≠ source := by
      rintro rfl
      exact (List.nodup_cons.mp hnodup).1 List.mem_cons_self
    have hcopied := hst.sheets.copyStyle hi hsource hne hlt
    refine ⟨rfl, rfl, fun j hj hji => ?_⟩
    show sheet (t.holdings.copyStyle i source) j = _
    rw [hcopied.sheets j hj, hst.sheets.sheets j hj, Function.update_of_ne hji]

/-! ### A sample -/

/-- The declarations of the first context. -/
def sample : Family where
  table := 0
  names := 0
  target i := i
  styles i := i < 2
  nonempty := ⟨0, Nat.zero_lt_two⟩

def sampleScene : Scene (List Event × Unit) where
  holdings := ([.newTable [], .newCache, .newStyle, .newStyle] : List Op).foldl
    (fun h op => op.apply h) {}
  queue := { context := 7 }
  received := []
  logs := []
  rest := ([], ())

/-- A sink that sets a property of the second declaration. -/
def painting : ContextId → Scene (List Event × Unit) → Scene (List Event × Unit) := fun _ s =>
  if 1 < s.holdings.styles.size then s.call sample Scene.quiet (.set 1 "color" "blue") else s

def samplePainted : Scene (List Event × Unit) :=
  sampleScene.call sample painting (.set 0 "background-color" "red")

def sampleClosed : Scene (List Event × Unit) :=
  (Scene.outlet Scene.quiet).close (samplePainted.call sample Scene.quiet (.copy 1 0))

/-- Two spellings of a name, a copy, and a change that a closed queue refuses. -/
def sampleEnd : Scene (List Event × Unit) :=
  sampleClosed.call sample Scene.quiet (.set 1 "backgroundColor" "green")

theorem quiet_run (busy : List StyleId) (context : ContextId) (s : Scene (List Event × Unit)) :
    Run sample busy s.holdings.hand s (Scene.quiet context s) := .nil s

theorem painting_run (context : ContextId) (s : Scene (List Event × Unit)) :
    Run sample [0] s.holdings.hand s (painting context s) := by
  rw [painting]
  split
  next hlt =>
    have hfree : (Request.set 1 "color" "blue").Free sample [0] s := by
      refine ⟨List.pairwise_singleton _ 1, fun i hi => ?_⟩
      rw [List.mem_singleton.mp hi]
      exact ⟨Nat.one_lt_two, by decide, hlt⟩
    exact .call hfree (quiet_run _) (.nil _)
  next => exact .nil s

theorem sampleScene_fresh : Fresh sample sampleScene :=
  .of_ops (by simp [Op.Ready, Style.Leaves]) rfl Nat.zero_lt_one rfl

theorem sample_free {r : Request} {s : Scene (List Event × Unit)} (hnodup : r.styles.Nodup)
    (hstyles : ∀ i ∈ r.styles, i < 2) (hsize : 2 ≤ s.holdings.styles.size) :
    r.Free sample [] s :=
  ⟨hnodup, fun i hi =>
    ⟨hstyles i hi, List.not_mem_nil, Nat.lt_of_lt_of_le (hstyles i hi) hsize⟩⟩

theorem sampleEnd_run : Run sample [] [] sampleScene sampleEnd := by
  obtain ⟨hsize, hpainted, hclosed⟩ : 2 ≤ sampleScene.holdings.styles.size ∧
      2 ≤ samplePainted.holdings.styles.size ∧ 2 ≤ sampleClosed.holdings.styles.size := by
    decide +kernel
  have hset : (Request.set 0 "background-color" "red").Free sample [] sampleScene :=
    sample_free (by decide) (by decide) hsize
  have hcopy : (Request.copy 1 0).Free sample [] samplePainted :=
    sample_free (by decide) (by decide) hpainted
  have hclose : Aside sample [] (samplePainted.call sample Scene.quiet (.copy 1 0)) sampleClosed :=
    .elsewhere rfl rfl
  have hrefused : (Request.set 1 "backgroundColor" "green").Free sample [] sampleClosed :=
    sample_free (by decide) (by decide) hclosed
  exact .call hset painting_run (.call hcopy (quiet_run _)
    (.aside hclose (.call hrefused (quiet_run _) (.nil _))))

/-- The sink's request returned first; the copy has both colours; the last change is refused. -/
theorem sampleEnd_mirrored : Fresh sample sampleScene ∧ Run sample [] [] sampleScene sampleEnd ∧
    Mirrored sample sampleEnd ∧
    sampleEnd.rest.1.map (·.reply) = [.done, .done, .done, .refused (.contextDisposed 7)] ∧
    sheet sampleEnd.holdings 1 = [("color", "blue"), ("backgroundColor", "red")] := by
  exact ⟨sampleScene_fresh, sampleEnd_run, Run.refines sampleScene_fresh sampleEnd_run,
    by decide +kernel⟩

end Family
end ScriptHost.Style
