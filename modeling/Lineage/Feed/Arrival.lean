import Lineage.Text.Utf8

/-!
# Feeds

A feed hands out messages one at a time, each as its bytes. It is described by what is going to
arrive on it. Most arrivals end the fetch that is waiting for them: a message, a failure, or the end
of the input. Two do not: a request to stop, which is noticed while the fetch goes on, and a
silence, behind which nothing arrives any more until whoever waits gives up.

A feed whose arrivals have run out has ended, however often it is asked. An end that stands among
the arrivals ends one fetch only; the next goes on behind it, as with a device that takes up again.
-/

namespace Lineage

namespace Feed

/-- What arrives on a feed. -/
inductive Arrival
  | message (bytes : List UInt8)
  | failed (reason : String)
  | ended
  | stopRequest
  | silence
deriving DecidableEq, Repr

/-- How a fetch ends. -/
inductive Fetched
  | message (bytes : List UInt8)
  | failed (reason : String)
  | ended
  /-- Not at all, unless whoever waits gives up. -/
  | silent
deriving DecidableEq, Repr

/-- A fetch. -/
structure Fetch where
  result : Fetched
  /-- Whether a request to stop came meanwhile. -/
  stopRequested : Bool
  rest : List Arrival
deriving DecidableEq, Repr

def fetch : List Arrival → Fetch
  | [] => ⟨.ended, false, []⟩
  | .message bytes :: rest => ⟨.message bytes, false, rest⟩
  | .failed reason :: rest => ⟨.failed reason, false, rest⟩
  | .ended :: rest => ⟨.ended, false, rest⟩
  -- A silence is not used up: the next fetch meets it again.
  | .silence :: rest => ⟨.silent, false, .silence :: rest⟩
  -- A request ends no fetch; whatever ends it comes behind.
  | .stopRequest :: rest => { fetch rest with stopRequested := true }

/-- A fetch that brings something takes it from what was to arrive. -/
theorem length_fetch_rest_of_ne {arrivals : List Arrival}
    (hended : (fetch arrivals).result ≠ .ended) (hsilent : (fetch arrivals).result ≠ .silent) :
    (fetch arrivals).rest.length < arrivals.length := by
  induction arrivals with
  | nil => simp [fetch] at hended
  | cons arrival rest ih =>
    cases arrival with
    | stopRequest =>
      have := ih (by simpa [fetch] using hended) (by simpa [fetch] using hsilent)
      simp only [fetch, List.length_cons]
      omega
    | silence => simp [fetch] at hsilent
    | _ => simp [fetch]

/-- A fetch that ends with a message takes it from what was to arrive. -/
theorem length_fetch_rest {arrivals : List Arrival} {bytes : List UInt8}
    (h : (fetch arrivals).result = .message bytes) :
    (fetch arrivals).rest.length < arrivals.length :=
  length_fetch_rest_of_ne (by simp [h]) (by simp [h])

end Feed

/-- A feed. -/
structure Feed where
  label : String
  /-- What is going to arrive on it. -/
  arrivals : List Feed.Arrival
deriving DecidableEq, Repr

namespace Feed

/-- The feed of some texts that were sent before they are asked for. -/
def ofTexts (label : String) (texts : List String) : Feed :=
  ⟨label, texts.map fun text => .message (Text.Utf8.encode text)⟩

/-- Why someone who fetched from a feed went no further. -/
inductive StopReason
  | endOfInput
  | shutdown
  | failure (reason : String)
deriving DecidableEq, Repr

/-- The name of the sort of a reason. -/
def StopReason.label : StopReason → String
  | endOfInput => "end_of_input"
  | shutdown => "shutdown"
  | failure _ => "source_error"

end Feed

end Lineage
