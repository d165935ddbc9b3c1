import RetroPark.Cores.RefCoreRollback
import RetroPark.Net.NetSession
import RetroPark.Net.RollbackSession
import RetroPark.Net.Wire
import RetroPark.Runtime.Driven
import RetroPark.Support.Dialogue

/-!
# Starting a session

`start_host` and `start_join` of both kinds of session. The two peers exchange `Hello`, and then the
host sends its serialized state.

* the start functions are programs over a transport that carries whole messages;
* `Opened` is what a start that succeeds has sent, received and set, and `start_agrees` what follows
  for two peers that have both started, whatever roles and arguments they were started with;
* `two_hosts_start` is the case of two hosts, which nothing on the wire tells apart from a host and
  a join.
-/

namespace RetroPark.Net

open Duplex RetroPark.Runtime

/-- A string that ends before its first zero byte. -/
structure CString where
  bytes : Blob
  no_nul : 0 ∉ bytes

/-- What `start_host` or `start_join` returns and writes to `err` when it fails. -/
structure StartError where
  code : RpResult
  err : String
  deriving DecidableEq, Repr

/-- A program over the transport of a session. -/
abbrev TransportProgram (α : Type) := Dialogue.Prog Blob α

/-! ### The handshake -/

/-- `set_core_id`: at most 63 bytes of the name, padded with zeroes. -/
def setCoreId (src : Option CString) : Vector UInt8 64 :=
  Vector.ofFn fun i => ((src.elim [] (·.bytes)).take 63).getD i 0

/-- `std::memcmp` finds no difference. -/
def memEqual (a b : Vector UInt8 64) : Bool := a.toList == b.toList

/-- `std::strncmp` finds no difference. -/
def strEqual (a b : Vector UInt8 64) : Bool :=
  a.toList.takeWhile (· != 0) == b.toList.takeWhile (· != 0)

/-- The value of a decoder that has succeeded. -/
def decoded {α : Type} : Except OutOfBounds (Option α) → Option α
  | .ok (some x) => some x
  | _ => none

/-- The `Hello` of a side. -/
def hello (value : UInt32) (contentHash : UInt64) (coreId : Option CString) : Wire.Hello :=
  { abiVersion := abiVersion, contentHash, inputDelay := value, startFrame := 0
    coreId := setCoreId coreId }

/-- The exchange of `Hello`, up to the value the peer has sent in its own. -/
def exchangeHello (sameCore : Vector UInt8 64 → Vector UInt8 64 → Bool) (value : UInt32)
    (contentHash : UInt64) (coreId : Option CString) :
    TransportProgram (Except StartError UInt32) := do
  let mine := hello value contentHash coreId
  let helloSent ← Dialogue.send (Wire.encodeHello mine)
  if !helloSent then return .error ⟨.device, "hello send failed"⟩
  match ← Dialogue.recv with
  | none => return .error ⟨.device, "hello recv failed"⟩
  | some arrived =>
    match decoded (Wire.decodeHello arrived) with
    | none => return .error ⟨.internal, "bad hello"⟩
    | some peer =>
      if peer.abiVersion ≠ abiVersion then return .error ⟨.abiMismatch, "abi mismatch"⟩
      if peer.contentHash ≠ contentHash || !sameCore peer.coreId mine.coreId then
        return .error ⟨.badArg, "core/content mismatch"⟩
      return .ok peer.inputDelay

/-- The handshake of a session, up to the value it sets: the host keeps its own, the join adopts
that of the host. -/
def handshake (sameCore : Vector UInt8 64 → Vector UInt8 64 → Bool) (adopt : UInt32 → UInt32)
    (asHost : Bool) (value : UInt32) (contentHash : UInt64) (coreId : Option CString) :
    TransportProgram (Except StartError UInt32) := do
  match ← exchangeHello sameCore value contentHash coreId with
  | .error e => return .error e
  | .ok peerValue => return .ok (adopt (if asHost then value else peerValue))

/-- `NetSession::handshake`, for `delay_`. -/
def NetSession.handshake : Bool → UInt32 → UInt64 → Option CString →
    TransportProgram (Except StartError UInt32) :=
  Net.handshake memEqual fun delay => delay

/-- The prediction window used where the host has given none. -/
def orDefault (prediction : UInt32) : UInt32 := if prediction = 0 then 8 else prediction

/-- `RollbackSession::handshake`, for `max_prediction_`. -/
def RollbackSession.handshake : Bool → UInt32 → UInt64 → Option CString →
    TransportProgram (Except StartError UInt32) :=
  Net.handshake strEqual orDefault

/-! ### The initial state -/

variable {κ β : Type} (env : Env κ β)

/-- The host sends a state, of no bytes when the core cannot serialize. -/
def sendStateSync (blob : Blob) (w : World κ β) :
    TransportProgram (Except StartError Unit × World κ β) := do
  let stateSent ← Dialogue.send (Wire.encodeStateSync { frame := 0, blob })
  if !stateSent then return (.error ⟨.device, "state send failed"⟩, w)
  return (.ok (), w)

/-- The last part of `start_host`. -/
def sendState (w : World κ β) : TransportProgram (Except StartError Unit × World κ β) :=
  let size := (serializeSize env).run w
  if size.1 = 0 then sendStateSync [] size.2
  else
    let saved := (saveState env true size.1).run size.2
    if saved.1.1 ≠ .ok then return (.error ⟨.internal, "serialize failed"⟩, saved.2)
    else sendStateSync (fillBuffer size.1 saved.1.2) saved.2

/-- The last part of `start_join`. -/
def receiveState (w : World κ β) : TransportProgram (Except StartError Unit × World κ β) := do
  match ← Dialogue.recv with
  | none => return (.error ⟨.device, "state recv failed"⟩, w)
  | some arrived =>
    match decoded (Wire.decodeStateSync arrived) with
    | none => return (.error ⟨.internal, "bad state sync"⟩, w)
    | some s =>
      if s.blob = [] then return (.ok (), w)
      let loaded := (loadState env s.blob).run w
      if loaded.1 ≠ .ok then return (.error ⟨.unsupported, "load_state failed"⟩, loaded.2)
      return (.ok (), loaded.2)

/-! ### The start functions -/

/-- `start_host` with its parameter, or `start_join`. -/
inductive Role
  | host (value : UInt32)
  | join
  deriving DecidableEq

namespace NetPeer

/-- What a start resets. The maps stay as they are. -/
def reset (localPort remotePort : UInt32) (p : NetPeer κ β) : NetPeer κ β :=
  { p with session := { p.session with localPort, remotePort, frame := 0, status := .ok } }

/-- What a handshake and the exchange of the state have set. -/
def opened (delay : UInt32) (w : World κ β) (p : NetPeer κ β) : NetPeer κ β :=
  { p with session.delay := delay, world := w }

/-- `NetSession::start_host`. -/
def startHost (inputDelay : UInt32) (contentHash : UInt64) (coreId : Option CString)
    (p : NetPeer κ β) : TransportProgram (Except StartError Unit × NetPeer κ β) := do
  let p := p.reset 0 1
  match ← NetSession.handshake true inputDelay contentHash coreId with
  | .error e => return (.error e, p)
  | .ok delay =>
      let r ← sendState env p.world
      return (r.1, p.opened delay r.2)

/-- `NetSession::start_join`. -/
def startJoin (contentHash : UInt64) (coreId : Option CString) (p : NetPeer κ β) :
    TransportProgram (Except StartError Unit × NetPeer κ β) := do
  let p := p.reset 1 0
  match ← NetSession.handshake false 0 contentHash coreId with
  | .error e => return (.error e, p)
  | .ok delay =>
      let r ← receiveState env p.world
      return (r.1, p.opened delay r.2)

def start (role : Role) (contentHash : UInt64) (coreId : Option CString) (p : NetPeer κ β) :
    TransportProgram (Except StartError Unit × NetPeer κ β) :=
  match role with
  | .host inputDelay => startHost env inputDelay contentHash coreId p
  | .join => startJoin env contentHash coreId p

end NetPeer

namespace RollbackPeer

/-- What a start resets. The maps stay as they are. -/
def reset (localPort remotePort : UInt32) (p : RollbackPeer κ β) : RollbackPeer κ β :=
  { p with session := { p.session with
      localPort, remotePort, frame := 0, confirmed := 0, haveConfirmed := false, verified := 0
      rollbackCount := 0, status := .ok } }

/-- What a handshake and the exchange of the state have set. -/
def opened (maxPrediction : UInt32) (w : World κ β) (p : RollbackPeer κ β) : RollbackPeer κ β :=
  { p with session.maxPrediction := maxPrediction, world := w }

/-- `RollbackSession::start_host`. -/
def startHost (maxPrediction : UInt32) (contentHash : UInt64) (coreId : Option CString)
    (p : RollbackPeer κ β) : TransportProgram (Except StartError Unit × RollbackPeer κ β) := do
  let p := p.reset 0 1
  match ← RollbackSession.handshake true maxPrediction contentHash coreId with
  | .error e => return (.error e, p)
  | .ok prediction =>
      let r ← sendState env p.world
      return (r.1, p.opened prediction r.2)

/-- `RollbackSession::start_join`. -/
def startJoin (contentHash : UInt64) (coreId : Option CString) (p : RollbackPeer κ β) :
    TransportProgram (Except StartError Unit × RollbackPeer κ β) := do
  let p := p.reset 1 0
  match ← RollbackSession.handshake false 0 contentHash coreId with
  | .error e => return (.error e, p)
  | .ok prediction =>
      let r ← receiveState env p.world
      return (r.1, p.opened prediction r.2)

def start (role : Role) (contentHash : UInt64) (coreId : Option CString) (p : RollbackPeer κ β) :
    TransportProgram (Except StartError Unit × RollbackPeer κ β) :=
  match role with
  | .host maxPrediction => startHost env maxPrediction contentHash coreId p
  | .join => startJoin env contentHash coreId p

end RollbackPeer

/-! ### What a program that succeeds has sent and received -/

open Dialogue

/-- A greeting is decoded if its decoder accepts it. -/
theorem decoded_eq_some {α : Type} {r : Except OutOfBounds (Option α)} {x : α} :
    decoded r = some x ↔ r = .ok (some x) := by
  cases r with
  | error e => simp [decoded]
  | ok o => cases o <;> simp [decoded]

/-- What an exchange of greetings has sent and received. -/
theorem exchangeHello_completes {same : Vector UInt8 64 → Vector UInt8 64 → Bool} {value d : UInt32}
    {hash : UInt64} {id : Option CString} {sent received : List Blob}
    (h : Completes (exchangeHello same value hash id) sent received (.ok d)) :
    sent = [Wire.encodeHello (hello value hash id)] ∧
      ∃ bytes peer, received = [bytes] ∧ Wire.decodeHello bytes = .ok (some peer) ∧
        peer.contentHash = hash ∧ same peer.coreId (setCoreId id) = true ∧ peer.inputDelay = d := by
  obtain ⟨rest, rfl, hrest⟩ := completes_send_bind.mp h
  rcases completes_recv_bind.mp hrest with ⟨bytes, rest', rfl, harrived⟩ | hnone
  · dsimp only at harrived
    split at harrived
    · exact nomatch (completes_ret.mp harrived).2.2
    · next peer hpeer =>
      split_ifs at harrived with habi hother
      · exact nomatch (completes_ret.mp harrived).2.2
      · exact nomatch (completes_ret.mp harrived).2.2
      · obtain ⟨rfl, rfl, hd⟩ := completes_ret.mp harrived
        rw [Bool.or_eq_true, decide_eq_true_eq, not_or, not_not] at hother
        refine ⟨rfl, bytes, peer, rfl, decoded_eq_some.mp hpeer, hother.1, ?_, ?_⟩
        · rw [Bool.not_eq_true, Bool.not_eq_false'] at hother
          exact hother.2
        · exact (Except.ok.inj hd).symm
  · exact nomatch (completes_ret.mp hnone).2.2

/-- A start that succeeds has had a handshake. -/
theorem completes_handshake {P : Type} {hs : TransportProgram (Except StartError UInt32)}
    {k : Except StartError UInt32 → TransportProgram (Except StartError Unit × P)}
    (hfail : ∀ e, ∃ p, k (.error e) = .ret (.error e, p)) {sent received : List Blob} {q : P}
    (h : Completes (hs >>= k) sent received (.ok (), q)) :
    ∃ v sent₁ received₁ sent₂ received₂, Completes hs sent₁ received₁ (.ok v) ∧
      Completes (k (.ok v)) sent₂ received₂ (.ok (), q) ∧ sent = sent₁ ++ sent₂ ∧
        received = received₁ ++ received₂ := by
  obtain ⟨r, sent₁, received₁, sent₂, received₂, h₁, h₂, hsent, hreceived⟩ := completes_bind.mp h
  cases r with
  | error e =>
    obtain ⟨p, hp⟩ := hfail e
    rw [hp] at h₂
    exact nomatch (Prod.mk.inj (completes_ret.mp h₂).2.2).1
  | ok v => exact ⟨v, sent₁, received₁, sent₂, received₂, h₁, h₂, hsent, hreceived⟩

/-- The runtime a start leaves is that of its last part. -/
theorem completes_world {P : Type} {prog : TransportProgram (Except StartError Unit × World κ β)}
    (g : World κ β → P) {sent received : List Blob} {q : P}
    (h : Completes (prog >>= fun r => .ret (r.1, g r.2)) sent received (.ok (), q)) :
    ∃ w', Completes prog sent received (.ok (), w') ∧ q = g w' := by
  obtain ⟨r, sent₁, received₁, sent₂, received₂, h₁, h₂, rfl, rfl⟩ := completes_bind.mp h
  obtain ⟨rfl, rfl, hq⟩ := completes_ret.mp h₂
  obtain ⟨hok, rfl⟩ := Prod.mk.inj hq
  rw [List.append_nil, List.append_nil]
  exact ⟨r.2, hok ▸ h₁, rfl⟩

section Opened

variable {env} {c : CorePtr} {σ : Type*} {D : DrivenCore env.core c σ} {w w' : World κ β} {s : σ}

/-- What the send of a state has sent. -/
theorem sendStateSync_completes {blob : Blob} {sent received : List Blob}
    (h : Completes (sendStateSync blob w) sent received (.ok (), w')) :
    sent = [Wire.encodeStateSync { frame := 0, blob }] ∧ received = [] ∧ w' = w := by
  obtain ⟨rest, rfl, hrest⟩ := completes_send_bind.mp h
  obtain ⟨rfl, rfl, hq⟩ := completes_ret.mp hrest
  exact ⟨rfl, rfl, (Prod.mk.inj hq).2⟩

/-- The host sends the state of its core. -/
theorem sendState_completes (hlive : Live env D w s) {sent received : List Blob}
    (h : Completes (sendState env w) sent received (.ok (), w')) :
    sent = [Wire.encodeStateSync { frame := 0, blob := D.enc s }] ∧ received = [] ∧
      Live env D w' s := by
  obtain ⟨w₁, w₂, hsize, hsave, hlive', -⟩ := hlive.snapshot
  have hpos : (D.enc s).length ≠ 0 := (D.enc_pos s).ne'
  rw [sendState] at h
  dsimp only at h
  rw [hsize] at h
  dsimp only at h
  rw [if_neg hpos, hsave] at h
  dsimp only at h
  rw [if_neg (not_not.mpr rfl), fillBuffer_length] at h
  obtain ⟨hsent, hreceived, rfl⟩ := sendStateSync_completes h
  exact ⟨hsent, hreceived, hlive'⟩

/-- The join side receives a state, and its core is in it. -/
theorem receiveState_completes (hlive : Live env D w s) {sent received : List Blob}
    (h : Completes (receiveState env w) sent received (.ok (), w')) :
    sent = [] ∧ ∃ bytes sync, received = [bytes] ∧
      Wire.decodeStateSync bytes = .ok (some sync) ∧
        ∀ s', sync.blob = D.enc s' → Live env D w' s' := by
  rcases completes_recv_bind.mp h with ⟨bytes, rest, rfl, harrived⟩ | hnone
  · dsimp only at harrived
    split at harrived
    · exact nomatch (Prod.mk.inj (completes_ret.mp harrived).2.2).1
    · next sync hsync =>
      refine ⟨?_, bytes, sync, ?_, decoded_eq_some.mp hsync, fun s' hblob => ?_⟩
      · split_ifs at harrived <;> exact (completes_ret.mp harrived).1
      · split_ifs at harrived <;> rw [(completes_ret.mp harrived).2.1]
      · obtain ⟨w₁, hload, hlive'⟩ := hlive.loadState s'
        have hne : ¬sync.blob = [] := by
          rw [hblob]
          exact List.ne_nil_of_length_pos (D.enc_pos s')
        rw [if_neg hne, hblob, hload] at harrived
        obtain ⟨-, -, hq⟩ := completes_ret.mp harrived
        rw [(Prod.mk.inj hq).2]
        exact hlive'
  · exact nomatch (Prod.mk.inj (completes_ret.mp hnone).2.2).1

/-! ### What two sides agree on -/

namespace Role

/-- The value a role sends in its `Hello`. -/
def value : Role → UInt32
  | host value => value
  | join => 0

/-- The local and the remote port of a role. -/
def ports : Role → UInt32 × UInt32
  | host _ => (0, 1)
  | join => (1, 0)

/-- The value a role takes, given that of its peer. -/
def taken : Role → UInt32 → UInt32
  | host value, _ => value
  | join, peer => peer

/-- What the last part of a start has done: the host has sent its state, and the join holds whatever
state it has received. -/
def Synced (D : DrivenCore env.core c σ) (s : σ) (sent received : List Blob) (w : World κ β) :
    Role → Prop
  | host _ => sent = [Wire.encodeStateSync { frame := 0, blob := D.enc s }] ∧ received = [] ∧
      Live env D w s
  | join => sent = [] ∧ ∃ bytes sync, received = [bytes] ∧
      Wire.decodeStateSync bytes = .ok (some sync) ∧ ∀ s', sync.blob = D.enc s' → Live env D w s'

end Role

/-- What a side that has started with success has sent and received, and holds. -/
structure Opened (D : DrivenCore env.core c σ) (same : Vector UInt8 64 → Vector UInt8 64 → Bool)
    (adopt : UInt32 → UInt32) (role : Role) (hash : UInt64) (id : Option CString) (s : σ)
    (sent received : List Blob) (ports : UInt32 × UInt32) (value : UInt32) (w : World κ β) :
    Prop where
  ports_eq : ports = role.ports
  exchange : ∃ bytes peer restSent restReceived,
    sent = Wire.encodeHello (hello role.value hash id) :: restSent ∧
      received = bytes :: restReceived ∧ Wire.decodeHello bytes = .ok (some peer) ∧
        peer.contentHash = hash ∧ same peer.coreId (setCoreId id) = true ∧
          value = adopt (role.taken peer.inputDelay) ∧
            role.Synced D s restSent restReceived w

section Opens

variable {same : Vector UInt8 64 → Vector UInt8 64 → Bool} {adopt : UInt32 → UInt32}
  {hash : UInt64} {id : Option CString}

/-- A handshake is an exchange of greetings. -/
theorem handshake_completes {asHost : Bool} {value v : UInt32} {sent received : List Blob}
    (h : Completes (handshake same adopt asHost value hash id) sent received (.ok v)) :
    ∃ d, Completes (exchangeHello same value hash id) sent received (.ok d) ∧
      v = adopt (if asHost then value else d) := by
  obtain ⟨r, sent₁, received₁, sent₂, received₂, h₁, h₂, rfl, rfl⟩ := completes_bind.mp h
  cases r with
  | error e => exact nomatch (completes_ret.mp h₂).2.2
  | ok d =>
    obtain ⟨rfl, rfl, hv⟩ := completes_ret.mp h₂
    rw [List.append_nil, List.append_nil]
    exact ⟨d, h₁, Except.ok.inj hv⟩

variable {value v : UInt32} {sent₁ received₁ sent₂ received₂ : List Blob}

/-- What the host has done when its start succeeds. -/
theorem opened_host (hlive : Live env D w s)
    (h₁ : Completes (handshake same adopt true value hash id) sent₁ received₁ (.ok v))
    (h₂ : Completes (sendState env w) sent₂ received₂ (.ok (), w')) :
    Opened D same adopt (.host value) hash id s (sent₁ ++ sent₂) (received₁ ++ received₂) (0, 1) v
      w' := by
  obtain ⟨d, hd, rfl⟩ := handshake_completes h₁
  obtain ⟨rfl, bytes, peer, rfl, hpeer, hhash, hsame, rfl⟩ := exchangeHello_completes hd
  exact ⟨rfl, bytes, peer, sent₂, received₂, rfl, rfl, hpeer, hhash, hsame, rfl,
    sendState_completes hlive h₂⟩

/-- What the join side has done when its start succeeds. -/
theorem opened_join (hlive : Live env D w s)
    (h₁ : Completes (handshake same adopt false 0 hash id) sent₁ received₁ (.ok v))
    (h₂ : Completes (receiveState env w) sent₂ received₂ (.ok (), w')) :
    Opened D same adopt .join hash id s (sent₁ ++ sent₂) (received₁ ++ received₂) (1, 0) v w' := by
  obtain ⟨d, hd, rfl⟩ := handshake_completes h₁
  obtain ⟨rfl, bytes, peer, rfl, hpeer, hhash, hsame, rfl⟩ := exchangeHello_completes hd
  exact ⟨rfl, bytes, peer, sent₂, received₂, rfl, rfl, hpeer, hhash, hsame, rfl,
    receiveState_completes hlive h₂⟩

end Opens

/-- What a lockstep session has done when its start succeeds. -/
theorem NetPeer.start_opened {role : Role} {hash : UInt64} {id : Option CString}
    {p q : NetPeer κ β} (hlive : Live env D p.world s) {sent received : List Blob}
    (h : Completes (p.start env role hash id) sent received (.ok (), q)) :
    Opened D memEqual (fun v => v) role hash id s sent received
      (q.session.localPort, q.session.remotePort) q.session.delay q.world := by
  cases role with
  | host inputDelay =>
    obtain ⟨v, sent₁, received₁, sent₂, received₂, h₁, h₂, rfl, rfl⟩ :=
      completes_handshake (fun e => ⟨_, rfl⟩) h
    obtain ⟨w', hw', rfl⟩ := completes_world (fun w => (p.reset 0 1).opened v w) h₂
    exact opened_host hlive h₁ hw'
  | join =>
    obtain ⟨v, sent₁, received₁, sent₂, received₂, h₁, h₂, rfl, rfl⟩ :=
      completes_handshake (fun e => ⟨_, rfl⟩) h
    obtain ⟨w', hw', rfl⟩ := completes_world (fun w => (p.reset 1 0).opened v w) h₂
    exact opened_join hlive h₁ hw'

/-- What a rollback session has done when its start succeeds. -/
theorem RollbackPeer.start_opened {role : Role} {hash : UInt64} {id : Option CString}
    {p q : RollbackPeer κ β} (hlive : Live env D p.world s) {sent received : List Blob}
    (h : Completes (p.start env role hash id) sent received (.ok (), q)) :
    Opened D strEqual orDefault role hash id s sent received
      (q.session.localPort, q.session.remotePort) q.session.maxPrediction q.world := by
  cases role with
  | host maxPrediction =>
    obtain ⟨v, sent₁, received₁, sent₂, received₂, h₁, h₂, rfl, rfl⟩ :=
      completes_handshake (fun e => ⟨_, rfl⟩) h
    obtain ⟨w', hw', rfl⟩ := completes_world (fun w => (p.reset 0 1).opened v w) h₂
    exact opened_host hlive h₁ hw'
  | join =>
    obtain ⟨v, sent₁, received₁, sent₂, received₂, h₁, h₂, rfl, rfl⟩ :=
      completes_handshake (fun e => ⟨_, rfl⟩) h
    obtain ⟨w', hw', rfl⟩ := completes_world (fun w => (p.reset 1 0).opened v w) h₂
    exact opened_join hlive h₁ hw'

end Opened

/-! ### Agreement -/

/-- A name that was cut to 63 bytes is terminated. -/
theorem hello_terminated (value : UInt32) (hash : UInt64) (id : Option CString) :
    (hello value hash id).terminated = hello value hash id := by
  have hlast : (setCoreId id).set 63 0 = setCoreId id := by
    ext i hi
    rw [Vector.getElem_set]
    split_ifs with h63
    · subst h63
      rw [setCoreId, Vector.getElem_ofFn, List.getD_eq_getElem?_getD, List.getElem?_eq_none]
      · rfl
      · exact List.length_take_le _ _
    · rfl
  rw [Wire.Hello.terminated]
  exact congrArg (fun coreId => { hello value hash id with coreId }) hlast

section Agree

variable {env} {c : CorePtr} {σ : Type*} {D : DrivenCore env.core c σ}
  {same : Vector UInt8 64 → Vector UInt8 64 → Bool} {adopt : UInt32 → UInt32}
  {role : Side → Role} {hash : Side → UInt64} {id : Side → Option CString} {s : Side → σ}
  {sent received : Side → List Blob} {ports : Side → UInt32 × UInt32} {value : Side → UInt32}
  {w : Side → World κ β}

/-- What two sides of one kind agree on once both have started. A host and a join have opposite
ports, the same delay or prediction window, and the state of the host. -/
structure Agreed (D : DrivenCore env.core c σ) (same : Vector UInt8 64 → Vector UInt8 64 → Bool)
    (role : Side → Role) (hash : Side → UInt64) (id : Side → Option CString)
    (ports : Side → UInt32 × UInt32) (value : Side → UInt32) (w : Side → World κ β) : Prop where
  hash_eq : hash .left = hash .right
  sameCore : ∀ t, same (setCoreId (id t.other)) (setCoreId (id t)) = true
  notBothJoin : role .left ≠ .join ∨ role .right ≠ .join
  seated : ∀ t v, role t = .host v → role t.other = .join →
    ports t = (0, 1) ∧ ports t.other = (1, 0) ∧ value t = value t.other ∧
      D.view (w t).core = D.view (w t.other).core

/-- Two sides that have opened with each other's messages agree. -/
theorem agreed_of_opened (h : ∀ t, Opened D same adopt (role t) (hash t) (id t) (s t) (sent t)
      (received t) (ports t) (value t) (w t))
    (hpre : ∀ t, received t <+: sent t.other)
    (hfits : ∀ t, role t ≠ .join → (D.enc (s t)).length < 2 ^ 32) :
    Agreed D same role hash id ports value w := by
  choose bytes peer restSent restReceived hsent hreceived hdecode hhash hsame hvalue hsynced
    using fun t => (h t).exchange
  -- What each side has received is the `Hello` of the other one, and then part of the rest.
  have hheard : ∀ t, bytes t = Wire.encodeHello (hello (role t.other).value (hash t.other)
      (id t.other)) ∧ restReceived t <+: restSent t.other := by
    intro t
    have hp := hpre t
    rwa [hreceived t, hsent t.other, List.cons_prefix_cons] at hp
  -- Decoding gives back the message that was encoded.
  have hpeer : ∀ t, peer t = hello (role t.other).value (hash t.other) (id t.other) := by
    intro t
    have hround := Wire.exact_hello.roundTrip
      (hello (role t.other).value (hash t.other) (id t.other)) (Set.mem_univ _)
    rw [← (hheard t).1, hdecode t, hello_terminated] at hround
    exact Option.some.inj (Except.ok.inj hround)
  refine ⟨?_, fun t => ?_, ?_, fun t v hhost hjoin => ⟨?_, ?_, ?_, ?_⟩⟩
  · have := hhash .right
    rw [hpeer] at this
    exact this
  · have := hsame t
    rwa [hpeer] at this
  · -- Two joins would each wait for a state that nobody sends.
    by_contra hboth
    obtain ⟨hleft, hright⟩ := not_or.mp hboth
    have hl := hsynced .left
    have hr := hsynced .right
    rw [not_not.mp hleft] at hl
    rw [not_not.mp hright] at hr
    obtain ⟨-, b, sync, hb, -, -⟩ := hl
    have hp := (hheard .left).2
    rw [hb, show restSent Side.left.other = [] from hr.1] at hp
    exact absurd (List.prefix_nil.mp hp) (List.cons_ne_nil _ _)
  · -- The ports are those of the role.
    rw [(h t).ports_eq, hhost]
    rfl
  · rw [(h t.other).ports_eq, hjoin]
    rfl
  · -- The join takes the value the host has sent.
    have hother := hpeer t.other
    rw [Side.other_other] at hother
    rw [hvalue t, hvalue t.other, hhost, hjoin, hother, hhost]
    rfl
  · -- The state that the join decodes is the one the host has encoded.
    have hsyncHost := hsynced t
    have hsyncJoin := hsynced t.other
    rw [hhost] at hsyncHost
    rw [hjoin] at hsyncJoin
    obtain ⟨hstate, -, hlive⟩ := hsyncHost
    obtain ⟨-, b, sync, hb, hsync, hlive'⟩ := hsyncJoin
    have hp := (hheard t.other).2
    rw [Side.other_other, hb, hstate, List.cons_prefix_cons] at hp
    have hround := Wire.exact_stateSync.roundTrip { frame := 0, blob := D.enc (s t) }
      (hfits t (by rw [hhost]; exact Role.noConfusion))
    rw [← hp.1, hsync] at hround
    have hblob : sync.blob = D.enc (s t) :=
      congrArg Wire.StateSync.blob (Option.some.inj (Except.ok.inj hround))
    rw [hlive.view, (hlive' (s t) hblob).view]

/-- When both sides have returned, a side has failed or they agree: two lockstep sessions on the
delay, and two rollback sessions on the prediction window. -/
theorem start_agrees (D : DrivenCore env.core c σ) :
    (∀ (p : Side → NetPeer κ β) (acts : List Dialogue.Action)
      (m : Side → End Blob (Except StartError Unit × NetPeer κ β))
      (result : Side → Except StartError Unit) (q : Side → NetPeer κ β),
      (∀ t, Live env D (p t).world (s t)) →
      (∀ t, role t ≠ .join → (D.enc (s t)).length < 2 ^ 32) →
      machine.Run Machine.always (Dialogue.start fun t => (p t).start env (role t) (hash t) (id t))
        acts m → (∀ t, (m t).prog = .ret (result t, q t)) →
      (∃ t e, result t = .error e) ∨
        Agreed D memEqual role hash id
          (fun t => ((q t).session.localPort, (q t).session.remotePort))
          (fun t => (q t).session.delay) fun t => (q t).world) ∧
    ∀ (p : Side → RollbackPeer κ β) (acts : List Dialogue.Action)
      (m : Side → End Blob (Except StartError Unit × RollbackPeer κ β))
      (result : Side → Except StartError Unit) (q : Side → RollbackPeer κ β),
      (∀ t, Live env D (p t).world (s t)) →
      (∀ t, role t ≠ .join → (D.enc (s t)).length < 2 ^ 32) →
      machine.Run Machine.always (Dialogue.start fun t => (p t).start env (role t) (hash t) (id t))
        acts m → (∀ t, (m t).prog = .ret (result t, q t)) →
      (∃ t e, result t = .error e) ∨
        Agreed D strEqual role hash id
          (fun t => ((q t).session.localPort, (q t).session.remotePort))
          (fun t => (q t).session.maxPrediction) fun t => (q t).world := by
  -- Either some side has failed, or none has.
  have hok : ∀ result : Side → Except StartError Unit, (∃ t e, result t = .error e) ∨
      ∀ t, result t = .ok () := by
    intro result
    by_cases hfailed : ∃ t e, result t = .error e
    · exact Or.inl hfailed
    · refine Or.inr fun t => ?_
      cases hresult : result t with
      | error e => exact absurd ⟨t, e, hresult⟩ hfailed
      | ok => rfl
  constructor
  · intro p acts m result q hlive hfits hrun hret
    refine (hok result).imp (fun hfailed => hfailed) fun hresult => ?_
    obtain ⟨sent, received, hcompletes, hpre⟩ := run_completes hrun hret
    exact agreed_of_opened (fun t => NetPeer.start_opened (hlive t) (hresult t ▸ hcompletes t))
      hpre hfits
  · intro p acts m result q hlive hfits hrun hret
    refine (hok result).imp (fun hfailed => hfailed) fun hresult => ?_
    obtain ⟨sent, received, hcompletes, hpre⟩ := run_completes hrun hret
    exact agreed_of_opened (fun t => RollbackPeer.start_opened (hlive t) (hresult t ▸ hcompletes t))
      hpre hfits

end Agree

/-! ### Two peers of the reference core -/

/-- A host with the given parameter and a join. -/
def hostAndJoin (value : UInt32) : Side → Role
  | .left => .host value
  | .right => .join

/-- Two hosts. -/
def twoHosts (value value' : UInt32) : Side → Role
  | .left => .host value
  | .right => .host value'

/-- The content and the core both sides name. -/
def refHash : UInt64 := 7

def refName : Option CString := some ⟨[114, 98], by decide⟩

/-- Lockstep sessions of reference cores, of which the left one has run. -/
def netPeers : Side → NetPeer RefCoreRollback Unit
  | .left => { session := {}, world := { RefCoreRollback.loaded with core := { acc := 5 } } }
  | .right => { session := {}, world := RefCoreRollback.loaded }

/-- Rollback sessions of reference cores, of which the left one has run. -/
def rollbackPeers : Side → RollbackPeer RefCoreRollback Unit
  | .left => { session := {}, world := { RefCoreRollback.loaded with core := { acc := 5 } } }
  | .right => { session := {}, world := RefCoreRollback.loaded }

/-- Both sides have returned `RP_OK`. -/
def bothStarted {P : Type} (m : Side → End Blob (Except StartError Unit × P)) : Bool :=
  [Side.left, Side.right].all fun t =>
    match (m t).prog.result? with
    | some (.ok (), _) => true
    | _ => false

/-- The check finds both programs at their end. -/
theorem exists_of_bothStarted {P : Type} {m : Side → End Blob (Except StartError Unit × P)}
    (h : bothStarted m = true) : ∃ q : Side → P, ∀ t, (m t).prog = .ret (.ok (), q t) := by
  have hside : ∀ t, ∃ q, (m t).prog = .ret (.ok (), q) := by
    intro t
    have ht : (match (m t).prog.result? with
        | some (.ok (), _) => true
        | _ => false) = true := by
      refine List.all_eq_true.mp h t ?_
      cases t <;> simp
    -- Only a program that has returned has a result.
    split at ht
    · next q hq => exact ⟨q, Program.eq_ret_of_result? hq⟩
    · exact nomatch ht
  exact Classical.axiom_of_choice hside

/-- Both sides send `Hello`, and then the left one its state before the right one receives. -/
def inTurn : List Dialogue.Action :=
  [.go .left, .go .right, .go .left, .go .left, .go .right, .go .right]

/-- The reference core behind the environment of both sides. -/
abbrev refDriven : DrivenCore RefCoreRollback.env.core 1 UInt32 := RefCoreRollback.driven 1

/-- The accumulators of the two cores before the start. -/
def accumulators : Side → UInt32
  | .left => 5
  | .right => 0

/-- Sessions of both kinds start in turn and agree. -/
theorem start_agrees_inTurn :
    (∃ m, ∃ q : Side → NetPeer RefCoreRollback Unit, machine.exec Machine.always
        (Dialogue.start fun t => (netPeers t).start RefCoreRollback.env (hostAndJoin 3 t) refHash
          refName) inTurn = some m ∧
      (∀ t, (m t).prog = .ret (.ok (), q t)) ∧
        Agreed refDriven memEqual (hostAndJoin 3) (fun _ => refHash)
          (fun _ => refName) (fun t => ((q t).session.localPort, (q t).session.remotePort))
          (fun t => (q t).session.delay) fun t => (q t).world) ∧
    ∃ m, ∃ q : Side → RollbackPeer RefCoreRollback Unit, machine.exec Machine.always
        (Dialogue.start fun t => (rollbackPeers t).start RefCoreRollback.env (hostAndJoin 0 t)
          refHash refName) inTurn = some m ∧
      (∀ t, (m t).prog = .ret (.ok (), q t)) ∧
        Agreed refDriven strEqual (hostAndJoin 0) (fun _ => refHash)
          (fun _ => refName) (fun t => ((q t).session.localPort, (q t).session.remotePort))
          (fun t => (q t).session.maxPrediction) fun t => (q t).world := by
  have hlive : ∀ t, Live RefCoreRollback.env refDriven (netPeers t).world
      (accumulators t) := by
    intro t
    cases t <;> exact ⟨RefCoreRollback.loaded_live.ready, rfl⟩
  have hfits : ∀ t, (refDriven.enc (accumulators t)).length < 2 ^ 32 :=
    fun t => (show 4 < 2 ^ 32 by decide)
  constructor
  · have hany : (machine.exec Machine.always (Dialogue.start fun t => (netPeers t).start
        RefCoreRollback.env (hostAndJoin 3 t) refHash refName) inTurn).any bothStarted = true := by
      decide +kernel
    obtain ⟨m, hm, hstarted⟩ := (Option.any_eq_true _ _).mp hany
    obtain ⟨q, hq⟩ := exists_of_bothStarted hstarted
    refine ⟨m, q, hm, hq, ?_⟩
    rcases (start_agrees refDriven).1 netPeers inTurn m (fun _ => .ok ()) q hlive
      (fun t _ => hfits t) (Machine.run_iff_exec.mpr hm) hq with ⟨t, e, he⟩ | hagreed
    · exact nomatch he
    · exact hagreed
  · have hany : (machine.exec Machine.always (Dialogue.start fun t => (rollbackPeers t).start
        RefCoreRollback.env (hostAndJoin 0 t) refHash refName) inTurn).any bothStarted = true := by
      decide +kernel
    obtain ⟨m, hm, hstarted⟩ := (Option.any_eq_true _ _).mp hany
    obtain ⟨q, hq⟩ := exists_of_bothStarted hstarted
    refine ⟨m, q, hm, hq, ?_⟩
    rcases (start_agrees refDriven).2 rollbackPeers inTurn m (fun _ => .ok ()) q
      (fun t => by cases t <;> exact ⟨RefCoreRollback.loaded_live.ready, rfl⟩)
      (fun t _ => hfits t) (Machine.run_iff_exec.mpr hm) hq with ⟨t, e, he⟩ | hagreed
    · exact nomatch he
    · exact hagreed

/-- Two hosts both start, with different delays, and both play on port 0. -/
theorem two_hosts_start :
    ∃ m, ∃ q : Side → NetPeer RefCoreRollback Unit, machine.exec Machine.always
        (Dialogue.start fun t => (netPeers t).start RefCoreRollback.env (twoHosts 3 4 t) refHash
          refName) [.go .left, .go .right, .go .left, .go .left, .go .right, .go .right] = some m ∧
      (∀ t, (m t).prog = .ret (.ok (), q t)) ∧ (∀ t, (q t).session.localPort = 0) ∧
        (q .left).session.delay = 3 ∧ (q .right).session.delay = 4 := by
  have hany : (machine.exec Machine.always (Dialogue.start fun t => (netPeers t).start
      RefCoreRollback.env (twoHosts 3 4 t) refHash refName)
      [.go .left, .go .right, .go .left, .go .left, .go .right, .go .right]).any (fun m =>
        bothStarted m && [Side.left, Side.right].all fun t =>
          (m t).prog.result?.any fun r => decide (r.2.session.localPort = 0 ∧
            r.2.session.delay = (twoHosts 3 4 t).value)) = true := by
    decide +kernel
  obtain ⟨m, hm, hboth⟩ := (Option.any_eq_true _ _).mp hany
  obtain ⟨hstarted, hseats⟩ := (Bool.and_eq_true _ _).mp hboth
  obtain ⟨q, hq⟩ := exists_of_bothStarted hstarted
  have hseat : ∀ t, (q t).session.localPort = 0 ∧
      (q t).session.delay = (twoHosts 3 4 t).value := by
    intro t
    have ht := List.all_eq_true.mp hseats t (by cases t <;> simp)
    rw [hq t] at ht
    exact of_decide_eq_true ht
  exact ⟨m, q, hm, hq, fun t => (hseat t).1, (hseat .left).2, (hseat .right).2⟩

end RetroPark.Net
