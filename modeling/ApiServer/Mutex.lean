import ApiServer.BridgeSound

/-!
# Concurrent calls

`Server.call` holds `callbackMu` from before it marshals its payload until it has read the
reply. Goroutines calling it at once take steps in any order the lock allows. A step is one
statement of `call`; the Call envelope goes out a byte at a time, as `WriteByte` and `Write`
put bytes into the shared buffer, and the client appends its reply to the input once the
Call is flushed. `acquired`, the order in which goroutines took the lock, is kept for the
proofs only.
-/

namespace ApiServer

/-- Where a goroutine is in `Server.call`. -/
inductive CallPc where
  | start
  | locked
  | writing (payload rest : Bytes)
  | reading (payload : Bytes)
  | done (result : Except ApiError Bytes)

/-- The streams the calls share, and how many Calls the client has answered. -/
structure Wire where
  r : Bytes
  w : Sink
  calls : Nat

/-- The client: its reply to the `k`-th Call it receives. -/
abbrev Client := Nat → Envelope → Bytes

/-- A call `call(method, payload)`, with what `json.Marshal` makes of the payload. -/
abbrev Invocation := Bytes × Except ApiError Bytes

/-- Goroutines in `Server.call`, the lock's holder, and the order the lock was taken in. -/
structure Conc where
  wire : Wire
  callbackMu : Option Nat
  pcs : Nat → CallPc
  acquired : List Nat

def Conc.init (wire : Wire) : Conc := ⟨wire, none, fun _ => .start, []⟩

/-- Goroutine `g` moves to `pc`. -/
def Conc.move (c : Conc) (g : Nat) (pc : CallPc) : Conc :=
  { c with pcs := Function.update c.pcs g pc }

/-- One step of goroutine `g`, which runs `invs[g]`. A goroutine waiting for the lock, or
done, does nothing. -/
def callStep (invs : List Invocation) (client : Client) (c : Conc) (g : Nat) : Conc :=
  match invs[g]? with
  | none => c
  | some (method, payload) =>
    match c.pcs g with
    | .start =>
      if c.callbackMu = none then
        { c.move g .locked with callbackMu := some g, acquired := c.acquired ++ [g] }
      else c
    | .locked =>
      match payload with
      | .error e => { c.move g (.done (.error e)) with callbackMu := none }
      | .ok p => c.move g (.writing p (encodeMessage ⟨messageTypeCall, method, p⟩))
    | .writing p [] =>
      { c.move g (.reading p) with
        wire := { c.wire with
          r := c.wire.r ++ client c.wire.calls ⟨messageTypeCall, method, p⟩
          calls := c.wire.calls + 1 } }
    | .writing p (b :: rest) =>
      match put [b] c.wire.w with
      | .ok _ w => { c.move g (.writing p rest) with wire := { c.wire with w } }
      | .error e w =>
        { c.move g (.done (.error e)) with wire := { c.wire with w }, callbackMu := none }
    | .reading _ =>
      match readRequest method c.wire.r with
      | .ok env r =>
        { c.move g (.done (callResult env)) with wire := { c.wire with r }, callbackMu := none }
      | .error e r =>
        { c.move g (.done (.error e)) with wire := { c.wire with r }, callbackMu := none }
    | .done _ => c

/-- The goroutines take the steps `schedule` names, in that order. -/
def runSchedule (invs : List Invocation) (client : Client) (schedule : List Nat) (c : Conc) :
    Conc :=
  schedule.foldl (callStep invs client) c

/-! ## One call after another -/

/-- A whole `Server.call` on the wire, the client answering once the Call is written. -/
def seqCall (client : Client) (inv : Invocation) (wire : Wire) : Except ApiError Bytes × Wire :=
  match inv.2 with
  | .error e => (.error e, wire)
  | .ok p =>
    match put (encodeMessage ⟨messageTypeCall, inv.1, p⟩) wire.w with
    | .error e w => (.error e, { wire with w })
    | .ok _ w =>
      match readRequest inv.1 (wire.r ++ client wire.calls ⟨messageTypeCall, inv.1, p⟩) with
      | .ok env r => (callResult env, ⟨r, w, wire.calls + 1⟩)
      | .error e r => (.error e, ⟨r, w, wire.calls + 1⟩)

def seqCalls (client : Client) : List Invocation → Wire → List (Except ApiError Bytes) × Wire
  | [], wire => ([], wire)
  | inv :: invs, wire =>
    ((seqCall client inv wire).1 :: (seqCalls client invs (seqCall client inv wire).2).1,
      (seqCalls client invs (seqCall client inv wire).2).2)

end ApiServer
