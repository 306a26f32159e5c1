import FileDrop.Security.Token

/-!
# The pairing state machine

One request per peer device, from the token's creation to the user's decision. Every
operation is the body of one method under the write lock of the request map, with the clock
reading it takes as an argument. `apply_move` says once what an operation can do to the
request of a peer; the handshake results use it and never unfold an operation.
-/
namespace FileDrop

/-- Addition of `i64` in a build without overflow checks. -/
def i64Add (left right : Int) : Int := Int.bmod (left + right) (2 ^ 64)

/-- `pairing::PairingState`. -/
inductive PairingState where
  | pending
  | awaitingConfirmation
  | paired
  | rejected
  deriving DecidableEq, Repr

/-- `pairing::PairingRequest`. -/
structure PairingRequest where
  peerDeviceId : Uuid
  peerName : String
  token : String
  state : PairingState
  createdAt : Int
  expiresAt : Int
  deriving DecidableEq, Repr

/-- `PairingRequest::is_expired`. -/
def PairingRequest.isExpired (request : PairingRequest) (now : Int) : Bool :=
  request.expiresAt ≤ now

/-- `pairing::PairingStateMachine`: the requests, keyed by peer device. -/
structure PairingStateMachine where
  /-- The request of each peer that has one. -/
  requests : Uuid → Option PairingRequest

namespace PairingStateMachine

/-- `PairingStateMachine::new`. -/
def new : PairingStateMachine := ⟨fun _ => none⟩

/-- Replace the request of one peer. -/
def insert (machine : PairingStateMachine) (peer : Uuid) (request : PairingRequest) :
    PairingStateMachine :=
  ⟨Function.update machine.requests peer (some request)⟩

/-- `create_request`, at the clock reading `now`. -/
def createRequest (machine : PairingStateMachine) (now : Int) (peerDeviceId : Uuid)
    (peerName token : String) (ttlSecs : Int) : PairingRequest × PairingStateMachine :=
  let request : PairingRequest :=
    { peerDeviceId, peerName, token, state := .pending, createdAt := now,
      expiresAt := i64Add now ttlSecs }
  (request, machine.insert peerDeviceId request)

/-- `present_token`. -/
def presentToken (machine : PairingStateMachine) (now : Int) (peerDeviceId : Uuid)
    (presentedToken : String) : Except FileDropError Unit × PairingStateMachine :=
  match machine.requests peerDeviceId with
  | none => (.error .invalidPairingToken, machine)
  | some request =>
    if request.isExpired now then
      (.error .invalidPairingToken, machine.insert peerDeviceId { request with state := .rejected })
    else if !tokensMatch request.token presentedToken then
      (.error .invalidPairingToken, machine)
    else
      (.ok (), machine.insert peerDeviceId { request with state := .awaitingConfirmation })

/-- `confirm`. -/
def confirm (machine : PairingStateMachine) (peerDeviceId : Uuid) (accept : Bool) :
    Except FileDropError PairingState × PairingStateMachine :=
  match machine.requests peerDeviceId with
  | none => (.error (.deviceNotFound peerDeviceId), machine)
  | some request =>
    let state := if accept then PairingState.paired else .rejected
    (.ok state, machine.insert peerDeviceId { request with state })

/-- `get`. -/
def get (machine : PairingStateMachine) (peerDeviceId : Uuid) : Option PairingRequest :=
  machine.requests peerDeviceId

/-- `is_paired`. -/
def isPaired (machine : PairingStateMachine) (peerDeviceId : Uuid) : Bool :=
  match machine.requests peerDeviceId with
  | some request => request.state == .paired
  | none => false

/-- The body of the sweep loop for one request. -/
def sweepRequest (now : Int) (request : PairingRequest) : PairingRequest :=
  if request.state != .paired && request.isExpired now then { request with state := .rejected }
  else request

/-- `sweep_expired`. -/
def sweepExpired (machine : PairingStateMachine) (now : Int) : PairingStateMachine :=
  ⟨fun peer => (machine.requests peer).map (sweepRequest now)⟩

@[simp] theorem get_new (peer : Uuid) : new.get peer = none := rfl

@[simp] theorem get_insert_self (machine : PairingStateMachine) (peer : Uuid)
    (request : PairingRequest) : (machine.insert peer request).get peer = some request := by
  simp [get, insert]

@[simp] theorem get_insert_ne (machine : PairingStateMachine) {peer other : Uuid}
    (request : PairingRequest) (apart : other ≠ peer) :
    (machine.insert peer request).get other = machine.get other := by
  simp [get, insert, Function.update_of_ne apart]

@[simp] theorem get_sweepExpired (machine : PairingStateMachine) (now : Int) (peer : Uuid) :
    (machine.sweepExpired now).get peer = (machine.get peer).map (sweepRequest now) := rfl

/-- A peer is paired exactly when its request says so. -/
theorem isPaired_iff (machine : PairingStateMachine) (peer : Uuid) :
    machine.isPaired peer = true ↔
      ∃ request, machine.get peer = some request ∧ request.state = .paired := by
  unfold isPaired get
  cases machine.requests peer <;> simp

end PairingStateMachine

/-! ## Calls -/

/-- The method called and its arguments. -/
inductive PairingOp where
  | createRequest (peerDeviceId : Uuid) (peerName token : String) (ttlSecs : Int)
  | presentToken (peerDeviceId : Uuid) (presentedToken : String)
  | confirm (peerDeviceId : Uuid) (accept : Bool)
  | sweepExpired
  deriving DecidableEq, Repr

/-- A call and the clock reading it takes. -/
structure PairingCall where
  now : Int
  op : PairingOp
  deriving DecidableEq, Repr

/-- What a call returns. -/
inductive PairingReply where
  | created (request : PairingRequest)
  | presented (result : Except FileDropError Unit)
  | confirmed (result : Except FileDropError PairingState)
  | swept

namespace PairingStateMachine

/-- One call with its reply. -/
def reply (machine : PairingStateMachine) (call : PairingCall) :
    PairingReply × PairingStateMachine :=
  match call.op with
  | .createRequest peer name token ttl =>
    let (request, after) := machine.createRequest call.now peer name token ttl
    (.created request, after)
  | .presentToken peer token =>
    let (result, after) := machine.presentToken call.now peer token
    (.presented result, after)
  | .confirm peer accept =>
    let (result, after) := machine.confirm peer accept
    (.confirmed result, after)
  | .sweepExpired => (.swept, machine.sweepExpired call.now)

/-- The machine after one call. -/
def apply (machine : PairingStateMachine) (call : PairingCall) : PairingStateMachine :=
  (machine.reply call).2

/-- The machine after a sequence of calls. -/
def after (machine : PairingStateMachine) (calls : List PairingCall) : PairingStateMachine :=
  calls.foldl apply machine

@[simp] theorem after_nil (machine : PairingStateMachine) : machine.after [] = machine := rfl

@[simp] theorem after_cons (machine : PairingStateMachine) (call : PairingCall)
    (calls : List PairingCall) :
    machine.after (call :: calls) = (machine.apply call).after calls := rfl

@[simp] theorem after_append (machine : PairingStateMachine) (first second : List PairingCall) :
    machine.after (first ++ second) = (machine.after first).after second := by
  simp [after]

end PairingStateMachine

/-- The call registers a new request for the peer. -/
def PairingCall.creates (call : PairingCall) (peer : Uuid) : Prop :=
  ∃ name token ttl, call.op = .createRequest peer name token ttl

/-- Everything one call can do to the request of one peer. -/
inductive PairingMove (call : PairingCall) (peer : Uuid) :
    Option PairingRequest → Option PairingRequest → Prop where
  | created (old : Option PairingRequest) (name token : String) (ttl : Int)
      (op : call.op = .createRequest peer name token ttl) :
      PairingMove call peer old (some
        { peerDeviceId := peer, peerName := name, token, state := .pending,
          createdAt := call.now, expiresAt := i64Add call.now ttl })
  | kept (old : Option PairingRequest) (op : ¬call.creates peer)
      (undecided : old.isSome → ∀ accept, call.op ≠ .confirm peer accept)
      (refused : ∀ request, old = some request → call.op ≠ .presentToken peer request.token) :
      PairingMove call peer old old
  | presented (old : PairingRequest) (op : call.op = .presentToken peer old.token)
      (inTime : call.now < old.expiresAt) :
      PairingMove call peer (some old) (some { old with state := .awaitingConfirmation })
  | expired (old : PairingRequest)
      (op : (∃ token, call.op = .presentToken peer token) ∨
        call.op = .sweepExpired ∧ old.state ≠ .paired)
      (late : old.expiresAt ≤ call.now) :
      PairingMove call peer (some old) (some { old with state := .rejected })
  | decided (old : PairingRequest) (accept : Bool) (op : call.op = .confirm peer accept) :
      PairingMove call peer (some old)
        (some { old with state := if accept then .paired else .rejected })

namespace PairingStateMachine

/-- Presenting a token moves the peer's request in one of four ways. -/
theorem presentToken_move (machine : PairingStateMachine) (now : Int) (target peer : Uuid)
    (token : String) :
    PairingMove ⟨now, .presentToken target token⟩ peer (machine.get peer)
      ((machine.presentToken now target token).2.get peer) := by
  have notCreate : ¬PairingCall.creates ⟨now, .presentToken target token⟩ peer := by
    rintro ⟨_, _, _, op⟩
    cases op
  have notConfirm : ∀ accept, (⟨now, .presentToken target token⟩ : PairingCall).op ≠
      .confirm peer accept := by
    intro accept op
    cases op
  -- the calls that leave the peer alone: another target, no request, or a wrong token
  have kept : (∀ request, machine.get peer = some request → target = peer →
      token ≠ request.token) →
      PairingMove ⟨now, .presentToken target token⟩ peer (machine.get peer) (machine.get peer) := by
    intro wrong
    refine .kept _ notCreate (fun _ => notConfirm) fun request found op => ?_
    cases op
    exact wrong request found rfl rfl
  unfold presentToken
  cases found : machine.requests target with
  | none =>
    refine kept fun request stored same => ?_
    subst same
    exact absurd (found.symm.trans stored) (by simp)
  | some request =>
    by_cases late : request.isExpired now
    · simp only [late, ↓reduceIte]
      by_cases same : peer = target
      · subst same
        rw [get_insert_self, show machine.get peer = some request from found]
        exact .expired request (.inl ⟨token, rfl⟩) (by simpa [PairingRequest.isExpired] using late)
      · rw [get_insert_ne _ _ same]
        exact kept fun _ _ target => absurd target.symm same
    · simp only [late, Bool.false_eq_true, ↓reduceIte]
      by_cases right : tokensMatch request.token token
      · simp only [right, Bool.not_true, Bool.false_eq_true, ↓reduceIte]
        by_cases same : peer = target
        · subst same
          have stored := (tokensMatch_eq_true _ _).mp right
          subst stored
          rw [get_insert_self, show machine.get peer = some request from found]
          exact .presented request rfl (by simpa [PairingRequest.isExpired] using late)
        · rw [get_insert_ne _ _ same]
          exact kept fun _ _ target => absurd target.symm same
      · simp only [right, Bool.not_false, ↓reduceIte]
        refine kept fun stored member same equal => right ?_
        subst same
        obtain rfl := Option.some.inj (found.symm.trans member)
        exact (tokensMatch_eq_true _ _).mpr equal.symm

/-- Every call moves the request of every peer by one of the moves. -/
theorem apply_move (machine : PairingStateMachine) (call : PairingCall) (peer : Uuid) :
    PairingMove call peer (machine.get peer) ((machine.apply call).get peer) := by
  obtain ⟨now, op⟩ := call
  cases op with
  | createRequest target name token ttl =>
    change PairingMove _ peer _ ((machine.insert target _).get peer)
    by_cases same : peer = target
    · subst same
      rw [get_insert_self]
      exact .created _ name token ttl rfl
    · rw [get_insert_ne _ _ same]
      refine .kept _ ?_ (fun _ accept => by simp) fun request _ => by simp
      rintro ⟨_, _, _, op⟩
      cases op
      exact same rfl
  | presentToken target token => exact machine.presentToken_move now target peer token
  | confirm target accept =>
    change PairingMove _ peer _ ((machine.confirm target accept).2.get peer)
    have notCreate : ¬PairingCall.creates ⟨now, .confirm target accept⟩ peer := by
      rintro ⟨_, _, _, op⟩
      cases op
    unfold confirm
    cases found : machine.requests target with
    | none =>
      refine .kept _ notCreate (fun present other op => ?_) fun request _ => by simp
      cases op
      simp [get, found] at present
    | some request =>
      by_cases same : peer = target
      · subst same
        rw [get_insert_self, show machine.get peer = some request from found]
        exact .decided request accept rfl
      · rw [get_insert_ne _ _ same]
        refine .kept _ notCreate (fun _ other op => ?_) fun request _ => by simp
        cases op
        exact same rfl
  | sweepExpired =>
    change PairingMove _ peer _ ((machine.sweepExpired now).get peer)
    have notCreate : ¬PairingCall.creates ⟨now, .sweepExpired⟩ peer := by
      rintro ⟨_, _, _, op⟩
      cases op
    rw [get_sweepExpired]
    cases machine.get peer with
    | none => exact .kept _ notCreate (fun _ accept => by simp) fun request _ => by simp
    | some request =>
      rw [Option.map_some]
      unfold sweepRequest
      split
      · rename_i swept
        simp only [Bool.and_eq_true, bne_iff_ne, ne_eq, PairingRequest.isExpired,
          decide_eq_true_eq] at swept
        exact .expired request (.inr ⟨rfl, swept.1⟩) swept.2
      · exact .kept _ notCreate (fun _ accept => by simp) fun request _ => by simp

end PairingStateMachine

end FileDrop
