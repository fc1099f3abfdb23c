/-
Dispatch of module events.

`dispatch` offers an event to the listeners that are registered when it begins, in the order of
their registration.  A listener may do anything in its turn: register and remove listeners, start
another dispatch, dispose of the context.  So each handle is looked up again when its turn comes,
a failure is reported before the next turn, and the dispatch ends, with nobody registered, as soon
as the context has become invalid.

The state on which listeners act is a parameter: `Surroundings` says what a dispatch needs of it.
-/
import ScriptHost.Listener.Roster
import ScriptHost.Json.Reader
import ScriptHost.Log

namespace ScriptHost

/-- What a listener is told. -/
structure ModuleEvent where
  module : String
  event : Option String
  /-- The payload, read once for all listeners. -/
  payload : Option Json

/-- One turn of a dispatch: whose it was, and the message if the listener failed. -/
structure Delivery where
  handle : Handle
  failure : Option String
  deriving DecidableEq

structure DispatchReport where
  delivered : Nat
  failed : Nat
  deriving DecidableEq

def DispatchReport.ofDeliveries (ds : List Delivery) : DispatchReport :=
  ⟨ds.length, ds.countP (·.failure.isSome)⟩

/-- What a dispatch needs of a state `σ` in which listeners `L` are registered. -/
structure Surroundings (σ L : Type) where
  context : ContextId
  isValid : σ → Bool
  roster : σ → Roster L
  setRoster : Roster L → σ → σ
  /-- A listener takes its turn; the result is the message of its failure. -/
  call : L → ModuleEvent → σ → Option String × σ
  /-- A failure goes to the error channel of the context. -/
  report : String → σ → σ
  log : Log → σ → σ

namespace Surroundings

variable {σ L : Type} (w : Surroundings σ L)

/-- Removes every listener. -/
def unlink (s : σ) : σ := w.setRoster (w.roster s).clear s

/-- One listener takes its turn, and its failure is reported. -/
def turn (e : ModuleEvent) (l : L) (s : σ) : Option String × σ :=
  match w.call l e s with
  | (none, s) => (none, s)
  | (some message, s) => (some message, w.report message s)

/-- The turns of some handles, as far as they are still registered. -/
def turns (e : ModuleEvent) : List Handle → σ → List Delivery × σ
  | [], s => ([], s)
  | h :: rest, s =>
    match (w.roster s).find? h with
    | none => turns e rest s
    | some l =>
      let (failure, s) := w.turn e l s
      if w.isValid s then
        let (ds, s) := turns e rest s
        (⟨h, failure⟩ :: ds, s)
      else ([⟨h, failure⟩], w.unlink s)

/-- Reads a payload text; what cannot be read is logged and counts as absent. -/
def readPayload (extra : Option String) (s : σ) : Option Json × σ :=
  let payload := Json.payload? extra
  (payload, if extra.isSome ∧ payload.isNone then w.log .payloadMalformed s else s)

/-- Offers an event to every registered listener.  On an invalid context nobody is called and
nobody stays registered. -/
def dispatch (module : String) (event extra : Option String) (s : σ) :
    Except Fault DispatchReport × σ :=
  if ¬ w.isValid s then (.error (.contextDisposed w.context), w.unlink s)
  else
    let (payload, s) := w.readPayload extra s
    let (ds, s) := w.turns ⟨module, event, payload⟩ (w.roster s).handles s
    let report := DispatchReport.ofDeliveries ds
    (.ok report, w.log (.eventDispatched w.context module report.delivered report.failed) s)

end Surroundings
end ScriptHost
