import FileDrop.Foundation.Since
import FileDrop.Pairing.State

/-!
# The pairing handshake over whole runs

The protocol asks for an order: a token is presented once, in time, and only then may the user
accept. The machine records that order in the state field alone, and two of its operations do
not look at the field they overwrite: `confirm` accepts a request in any state, and
`present_token` moves a request of any state to `AwaitingConfirmation` or `Rejected`. Each
result here says exactly which runs keep the order, and gives a run that breaks it.
-/
namespace FileDrop.Handshake
open FileDrop Runs

/-- The machine after the calls of a run that starts with no requests. -/
abbrev reached (calls : List PairingCall) : PairingStateMachine :=
  PairingStateMachine.new.after calls

/-- One more call of a run. -/
theorem reached_snoc (calls : List PairingCall) (call : PairingCall) :
    reached (calls ++ [call]) = (reached calls).apply call := by
  simp [reached]

/-- The clock never goes back and every request lives for a positive time. -/
def Clocked (calls : List PairingCall) : Prop :=
  calls.Pairwise (fun first second => first.now ≤ second.now) ∧
    ∀ call ∈ calls, ∀ peer name token ttl,
      call.op = .createRequest peer name token ttl → 0 < ttl

/-- The call presents the token of the peer's request before the request expires. -/
def PresentsInTime (request : PairingRequest) (peer : Uuid) (earlier : List PairingCall)
    (call : PairingCall) : Prop :=
  call.op = .presentToken peer request.token ∧ call.now < request.expiresAt ∧
    ∃ target, (reached earlier).get peer = some target ∧ target.token = request.token ∧
      target.expiresAt = request.expiresAt

/-- A request awaits confirmation only because its own token was presented in time, and the
peer's request has not been replaced since. -/
theorem awaiting_since (calls : List PairingCall) (peer : Uuid) (request : PairingRequest)
    (found : (reached calls).get peer = some request)
    (awaiting : request.state = .awaitingConfirmation) :
    Since (PresentsInTime request peer) (·.creates peer) calls := by
  induction calls using List.reverseRecOn generalizing request with
  | nil => cases found
  | append_singleton calls call ih =>
    rw [since_snoc]
    have move := (reached calls).apply_move call peer
    rw [← reached_snoc, found] at move
    generalize before : (reached calls).get peer = old at move
    cases move with
    | created _ name token ttl op => cases awaiting
    | kept _ op undecided refused => exact .inr ⟨ih request before awaiting, op⟩
    | presented old op inTime => exact .inl ⟨op, inTime, old, before, rfl, rfl⟩
    | expired old op late => cases awaiting
    | decided old accept op => cases accept <;> cases awaiting

/-! ## Trust only through the handshake -/

/-- The call makes the peer trusted: `is_paired` turns true, or `confirm` reports `Paired`. -/
def YieldsPaired (machine : PairingStateMachine) (call : PairingCall) (peer : Uuid) : Prop :=
  (machine.isPaired peer = false ∧ (machine.apply call).isPaired peer = true) ∨
    ∃ accept, call.op = .confirm peer accept ∧ (machine.confirm peer accept).1 = .ok .paired

/-- The call is the user's acceptance of an unexpired request that awaits confirmation, and it
awaits confirmation because exactly its token was presented before it expired. -/
def Due (earlier : List PairingCall) (call : PairingCall) (peer : Uuid) : Prop :=
  call.op = .confirm peer true ∧
    ∃ request, (reached earlier).get peer = some request ∧
      request.state = .awaitingConfirmation ∧ call.now < request.expiresAt ∧
      Since (PresentsInTime request peer) (·.creates peer) earlier

/-- The handshake order of a run: nothing but a due acceptance makes a peer trusted. -/
def HandshakeOrder (calls : List PairingCall) : Prop :=
  ∀ earlier call later, calls = earlier ++ call :: later →
    ∀ peer, YieldsPaired (reached earlier) call peer → Due earlier call peer

/-- Every acceptance that finds a request finds it awaiting confirmation and not expired. -/
def AcceptsAwaiting (calls : List PairingCall) : Prop :=
  ∀ earlier call later, calls = earlier ++ call :: later →
    ∀ peer request, call.op = .confirm peer true → (reached earlier).get peer = some request →
      request.state = .awaitingConfirmation ∧ call.now < request.expiresAt

/-- Only an acceptance of an existing request makes a peer trusted. -/
theorem yieldsPaired_accepts {machine : PairingStateMachine} {call : PairingCall} {peer : Uuid}
    (yields : YieldsPaired machine call peer) :
    call.op = .confirm peer true ∧ ∃ request, machine.get peer = some request := by
  rcases yields with ⟨unpaired, paired⟩ | ⟨accept, op, reported⟩
  · have move := machine.apply_move call peer
    obtain ⟨request, found, state⟩ := ((machine.apply call).isPaired_iff peer).mp paired
    rw [found] at move
    generalize before : machine.get peer = old at move
    cases move with
    | created _ name token ttl op => cases state
    | kept _ op undecided refused =>
      have already := (machine.isPaired_iff peer).mpr ⟨request, before, state⟩
      rw [unpaired] at already
      cases already
    | presented old op inTime => cases state
    | expired old op late => cases state
    | decided old accept op =>
      cases accept with
      | false => cases state
      | true => exact ⟨op, old, rfl⟩
  · unfold PairingStateMachine.confirm at reported
    cases found : machine.requests peer with
    | none => simp [found] at reported
    | some request =>
      cases accept with
      | false => simp [found] at reported
      | true => exact ⟨op, request, found⟩

/-- An acceptance of an existing request reports `Paired`, whatever the request's state. -/
theorem confirm_yieldsPaired {machine : PairingStateMachine} {call : PairingCall} {peer : Uuid}
    {request : PairingRequest} (op : call.op = .confirm peer true)
    (found : machine.get peer = some request) : YieldsPaired machine call peer := by
  refine .inr ⟨true, op, ?_⟩
  unfold PairingStateMachine.confirm
  rw [show machine.requests peer = some request from found]
  rfl

/-- A run keeps the handshake order exactly when each of its acceptances that finds a request
finds it awaiting confirmation and not expired. -/
theorem handshakeOrder_iff (calls : List PairingCall) :
    HandshakeOrder calls ↔ AcceptsAwaiting calls := by
  constructor
  · intro ordered earlier call later split peer request op found
    obtain ⟨-, other, same, awaiting, inTime, -⟩ :=
      ordered earlier call later split peer (confirm_yieldsPaired op found)
    obtain rfl := Option.some.inj (found.symm.trans same)
    exact ⟨awaiting, inTime⟩
  · intro accepts earlier call later split peer yields
    obtain ⟨op, request, found⟩ := yieldsPaired_accepts yields
    obtain ⟨awaiting, inTime⟩ := accepts earlier call later split peer request op found
    exact ⟨op, request, found, awaiting, inTime,
      awaiting_since earlier peer request found awaiting⟩

/-- A peer device of the concrete runs. -/
def samplePeer : Uuid := ⟨0x6f1c2b9a4d3e4f5a8b7c6d5e4f3a2b1c⟩

/-- A token of the length and alphabet of a generated one. -/
def sampleToken : String := "Zm9vYmFyYmF6cXV4Zm9vYmFyYmF6cXV4Zm9vYmFyYmE"

/-- The user accepts a request whose token nobody has presented. -/
def acceptedUnseen : List PairingCall :=
  [⟨0, .createRequest samplePeer "laptop" sampleToken 300⟩, ⟨1, .confirm samplePeer true⟩]

/-- An acceptance of a request that is still `Pending` makes the peer trusted. -/
theorem handshakeOrder_broken :
    ¬∀ calls, Clocked calls → HandshakeOrder calls := by
  intro always
  have clocked : Clocked acceptedUnseen := by
    refine ⟨by decide, ?_⟩
    intro call member peer name token ttl op
    simp only [acceptedUnseen, List.mem_cons, List.not_mem_nil, or_false] at member
    rcases member with rfl | rfl
    · cases op
      decide
    · cases op
  have yields : YieldsPaired (reached (acceptedUnseen.take 1)) ⟨1, .confirm samplePeer true⟩
      samplePeer := .inr ⟨true, rfl, rfl⟩
  obtain ⟨-, request, found, awaiting, -, -⟩ :=
    always acceptedUnseen clocked (acceptedUnseen.take 1) _ [] rfl samplePeer yields
  obtain rfl := Option.some.inj found
  cases awaiting

/-! ## A completed pairing -/

/-- A call that a peer or the background loop can make: a presentation, or a sweep. -/
def Outside (call : PairingCall) : Prop :=
  (∃ peer token, call.op = .presentToken peer token) ∨ call.op = .sweepExpired

/-- The presentation, if the call is one to this peer's request, comes before the request
expires and with another token. -/
def Harmless (request : PairingRequest) (peer : Uuid) (call : PairingCall) : Prop :=
  ∀ token, call.op = .presentToken peer token →
    call.now < request.expiresAt ∧ token ≠ request.token

/-- An outside call leaves a paired request as it is when it is harmless. -/
theorem harmless_keeps {machine : PairingStateMachine} {call : PairingCall} {peer : Uuid}
    {request : PairingRequest} (outside : Outside call) (harmless : Harmless request peer call)
    (found : machine.get peer = some request) (paired : request.state = .paired) :
    (machine.apply call).get peer = some request := by
  have move := machine.apply_move call peer
  rw [found] at move
  generalize after : (machine.apply call).get peer = new at move
  cases move with
  | created _ name token ttl op =>
    rcases outside with ⟨_, _, presents⟩ | sweeps
    · exact absurd (op.symm.trans presents) (by simp)
    · exact absurd (op.symm.trans sweeps) (by simp)
  | kept _ op undecided refused => rfl
  | presented _ op inTime => exact absurd rfl (harmless request.token op).2
  | expired _ op late =>
    rcases op with ⟨token, presents⟩ | ⟨-, unpaired⟩
    · have inTime := (harmless token presents).1
      omega
    · exact absurd paired unpaired
  | decided _ accept op =>
    rcases outside with ⟨_, _, presents⟩ | sweeps
    · exact absurd (op.symm.trans presents) (by simp)
    · exact absurd (op.symm.trans sweeps) (by simp)

/-- An outside call that is not harmless takes a paired request out of `Paired`. -/
theorem harmful_unpairs {machine : PairingStateMachine} {call : PairingCall} {peer : Uuid}
    {request : PairingRequest} (harmful : ¬Harmless request peer call)
    (found : machine.get peer = some request) :
    (machine.apply call).isPaired peer = false := by
  simp only [Harmless, not_forall, not_and_or] at harmful
  obtain ⟨token, op, cause⟩ := harmful
  obtain ⟨now, called⟩ := call
  subst op
  change (machine.presentToken now peer token).2.isPaired peer = false
  unfold PairingStateMachine.presentToken
  rw [show machine.requests peer = some request from found]
  by_cases late : request.isExpired now
  · simp [late, PairingStateMachine.isPaired, PairingStateMachine.insert]
  · rcases cause with notBefore | notOther
    · simp only [PairingRequest.isExpired, decide_eq_true_eq] at late
      exact absurd (Int.not_le.mp late) notBefore
    · have same : tokensMatch request.token token = true :=
        (tokensMatch_eq_true _ _).mpr (not_not.mp notOther).symm
      simp [late, same, PairingStateMachine.isPaired, PairingStateMachine.insert]

/-- The peer is paired now and after every later call. -/
def StaysPaired (machine : PairingStateMachine) (peer : Uuid) (calls : List PairingCall) : Prop :=
  ∀ made left, calls = made ++ left → (machine.after made).isPaired peer = true

/-- A paired peer stays paired through a sequence of presentations and sweeps exactly when every
presentation to its request comes before the request expires and with another token. -/
theorem staysPaired_iff (machine : PairingStateMachine) (peer : Uuid) (request : PairingRequest)
    (calls : List PairingCall) (found : machine.get peer = some request)
    (paired : request.state = .paired) (outside : ∀ call ∈ calls, Outside call) :
    StaysPaired machine peer calls ↔ ∀ call ∈ calls, Harmless request peer call := by
  induction calls generalizing machine with
  | nil =>
    simp only [List.not_mem_nil, false_implies, implies_true, iff_true]
    intro made left split
    obtain ⟨rfl, -⟩ := List.append_eq_nil_iff.mp split.symm
    exact (machine.isPaired_iff peer).mpr ⟨request, found, paired⟩
  | cons call calls ih =>
    have step := outside call List.mem_cons_self
    have rest := fun later member => outside later (List.mem_cons_of_mem call member)
    constructor
    · intro stays
      have harmless : Harmless request peer call := by
        by_contra harmful
        have unpaired := harmful_unpairs harmful found
        have kept := stays [call] calls rfl
        rw [PairingStateMachine.after_cons, PairingStateMachine.after_nil, unpaired] at kept
        cases kept
      have kept := harmless_keeps step harmless found paired
      have later := (ih (machine.apply call) kept rest).mp fun made left split =>
        stays (call :: made) left (by rw [split, List.cons_append])
      exact List.forall_mem_cons.mpr ⟨harmless, later⟩
    · intro harmless made left split
      obtain ⟨first, others⟩ := List.forall_mem_cons.mp harmless
      have kept := harmless_keeps step first found paired
      cases made with
      | nil => exact (machine.isPaired_iff peer).mpr ⟨request, found, paired⟩
      | cons head made =>
        obtain ⟨rfl, tail⟩ := List.cons.inj split
        exact (ih (machine.apply call) kept rest).mpr others made left tail

/-- The machine after the token is presented and the user accepts. -/
def pairedRun : List PairingCall :=
  [⟨0, .createRequest samplePeer "laptop" sampleToken 300⟩,
    ⟨1, .presentToken samplePeer sampleToken⟩, ⟨2, .confirm samplePeer true⟩]

/-- A wrong token before the expiry, and a sweep after it, leave the peer paired. -/
theorem staysPaired_wrongToken :
    (StaysPaired (reached pairedRun) samplePeer
      [⟨3, .presentToken samplePeer "wrong"⟩, ⟨400, .sweepExpired⟩]) := by
  refine (staysPaired_iff (reached pairedRun) samplePeer
    ⟨samplePeer, "laptop", sampleToken, .paired, 0, 300⟩ _ (by decide) rfl ?_).mpr ?_
  · intro call member
    simp only [List.mem_cons, List.not_mem_nil, or_false] at member
    rcases member with rfl | rfl
    · exact .inl ⟨samplePeer, "wrong", rfl⟩
    · exact .inr rfl
  · intro call member token op
    simp only [List.mem_cons, List.not_mem_nil, or_false] at member
    rcases member with rfl | rfl
    · cases op
      decide
    · cases op

/-- Presenting the used token again takes the pairing back. -/
theorem staysPaired_broken :
    ¬∀ earlier later peer, (reached earlier).isPaired peer = true →
      (∀ call ∈ later, Outside call) → ((reached earlier).after later).isPaired peer = true := by
  intro always
  have outside : ∀ call ∈ [(⟨3, .presentToken samplePeer sampleToken⟩ : PairingCall)],
      Outside call := by
    intro call member
    rw [List.mem_singleton.mp member]
    exact .inl ⟨samplePeer, sampleToken, rfl⟩
  have kept := always pairedRun _ samplePeer (by decide) outside
  exact absurd kept (by decide)

/-! ## A token is used once -/

/-- The call presents a token to the peer's request and succeeds. -/
def Succeeds (machine : PairingStateMachine) (call : PairingCall) (peer : Uuid) : Prop :=
  ∃ token, call.op = .presentToken peer token ∧
    (machine.presentToken call.now peer token).1 = .ok ()

/-- Between two successful presentations to one peer its request was replaced, and once the
request is paired or rejected no presentation succeeds until it is replaced. -/
def SingleUse (calls : List PairingCall) : Prop :=
  (∀ earlier first between second later peer,
      calls = earlier ++ first :: between ++ second :: later →
      Succeeds (reached earlier) first peer →
      Succeeds (reached (earlier ++ first :: between)) second peer →
      ∃ call ∈ between, call.creates peer) ∧
    ∀ earlier between call later peer request,
      calls = earlier ++ between ++ call :: later → (reached earlier).get peer = some request →
      request.state = .paired ∨ request.state = .rejected →
      Succeeds (reached (earlier ++ between)) call peer → ∃ call ∈ between, call.creates peer

/-- Every presentation of the right token in time finds its request still pending. -/
def PresentsPending (calls : List PairingCall) : Prop :=
  ∀ earlier call later, calls = earlier ++ call :: later →
    ∀ peer request, (reached earlier).get peer = some request →
      call.op = .presentToken peer request.token → call.now < request.expiresAt →
      request.state = .pending

/-- A presentation succeeds exactly when the token is right and in time. -/
theorem succeeds_iff (machine : PairingStateMachine) (call : PairingCall) (peer : Uuid) :
    Succeeds machine call peer ↔ ∃ request, machine.get peer = some request ∧
      call.op = .presentToken peer request.token ∧ call.now < request.expiresAt := by
  unfold Succeeds PairingStateMachine.presentToken PairingStateMachine.get
  constructor
  · rintro ⟨token, op, accepted⟩
    cases found : machine.requests peer with
    | none => simp [found] at accepted
    | some request =>
      simp only [found] at accepted
      split at accepted
      · cases accepted
      · rename_i inTime
        split at accepted
        · cases accepted
        · rename_i right
          have same : request.token = token := by
            simpa [tokensMatch_eq_true] using right
          refine ⟨request, rfl, same ▸ op, ?_⟩
          simpa [PairingRequest.isExpired] using inTime
  · rintro ⟨request, found, op, inTime⟩
    have notLate : request.isExpired call.now = false := by
      simpa [PairingRequest.isExpired] using inTime
    have right : tokensMatch request.token request.token = true :=
      (tokensMatch_eq_true _ _).mpr rfl
    exact ⟨request.token, op, by simp [found, notLate, right]⟩

/-- A request that has left `Pending` does not return to it until it is replaced. -/
theorem left_pending (machine : PairingStateMachine) (calls : List PairingCall) (peer : Uuid)
    (request : PairingRequest) (found : machine.get peer = some request)
    (used : request.state ≠ .pending) (untouched : ∀ call ∈ calls, ¬call.creates peer) :
    ∃ still, (machine.after calls).get peer = some still ∧ still.state ≠ .pending := by
  induction calls generalizing machine request with
  | nil => exact ⟨request, found, used⟩
  | cons call calls ih =>
    obtain ⟨notCreate, rest⟩ := List.forall_mem_cons.mp untouched
    have move := machine.apply_move call peer
    rw [found] at move
    generalize after : (machine.apply call).get peer = new at move
    cases move with
    | created _ name token ttl op => exact absurd ⟨name, token, ttl, op⟩ notCreate
    | kept _ op undecided refused => exact ih (machine.apply call) request after used rest
    | presented _ op inTime => exact ih (machine.apply call) _ after (by simp) rest
    | expired _ op late => exact ih (machine.apply call) _ after (by simp) rest
    | decided _ accept op =>
      exact ih (machine.apply call) _ after (by cases accept <;> simp) rest

/-- A successful presentation leaves the request awaiting confirmation. -/
theorem succeeds_awaiting {machine : PairingStateMachine} {call : PairingCall} {peer : Uuid}
    (succeeds : Succeeds machine call peer) :
    ∃ request, (machine.apply call).get peer = some request ∧
      request.state = .awaitingConfirmation := by
  obtain ⟨request, found, op, inTime⟩ := (succeeds_iff machine call peer).mp succeeds
  have move := machine.apply_move call peer
  rw [found] at move
  generalize after : (machine.apply call).get peer = new at move
  cases move with
  | created _ name token ttl creates => exact absurd (op.symm.trans creates) (by simp)
  | kept _ notCreate undecided refused => exact absurd op (refused request rfl)
  | presented _ same inTime => exact ⟨_, rfl, rfl⟩
  | expired _ cause late => omega
  | decided _ accept confirms => exact absurd (op.symm.trans confirms) (by simp)

/-- A token is used once in a run exactly when each of its presentations that succeeds finds the
request still pending. -/
theorem singleUse_iff (calls : List PairingCall) : SingleUse calls ↔ PresentsPending calls := by
  constructor
  · rintro ⟨once, never⟩ earlier call later split peer request found op inTime
    have succeeds := (succeeds_iff (reached earlier) call peer).mpr ⟨request, found, op, inTime⟩
    by_contra used
    cases state : request.state with
    | pending => exact used state
    | awaitingConfirmation =>
      obtain ⟨before, first, between, rfl, ⟨presents, soon, target, stored, token, expiry⟩,
        untouched⟩ := awaiting_since earlier peer request found state
      have accepted : Succeeds (reached before) first peer :=
        (succeeds_iff _ _ _).mpr ⟨target, stored, token ▸ presents, expiry ▸ soon⟩
      obtain ⟨create, member, creates⟩ :=
        once before first between call later peer split accepted succeeds
      exact untouched create member creates
    | paired =>
      obtain ⟨create, member, -⟩ := never earlier [] call later peer request (by simpa using split)
        found (.inl state) (by simpa using succeeds)
      cases member
    | rejected =>
      obtain ⟨create, member, -⟩ := never earlier [] call later peer request (by simpa using split)
        found (.inr state) (by simpa using succeeds)
      cases member
  · intro pending
    -- a request that is no longer pending stays so until a create, so it cannot be presented
    have blocked : ∀ earlier between call later peer request,
        calls = earlier ++ between ++ call :: later →
        (reached earlier).get peer = some request → request.state ≠ .pending →
        Succeeds (reached (earlier ++ between)) call peer →
          ∃ create ∈ between, create.creates peer := by
      intro earlier between call later peer request split found used succeeds
      by_contra none
      simp only [not_exists, not_and] at none
      obtain ⟨still, stored, usedStill⟩ :=
        left_pending (reached earlier) between peer request found used none
      obtain ⟨target, same, op, inTime⟩ := (succeeds_iff _ _ _).mp succeeds
      have fresh := pending (earlier ++ between) call later split peer target same op inTime
      rw [← PairingStateMachine.after_append] at stored
      obtain rfl := Option.some.inj (stored.symm.trans same)
      exact usedStill fresh
    refine ⟨?_, ?_⟩
    · intro earlier first between second later peer split accepted succeeds
      obtain ⟨request, found, awaiting⟩ := succeeds_awaiting accepted
      rw [← reached_snoc] at found
      refine blocked (earlier ++ [first]) between second later peer request (by simpa using split)
        found (by simp [awaiting]) (by simpa using succeeds)
    · intro earlier between call later peer request split found ended succeeds
      refine blocked earlier between call later peer request split found ?_ succeeds
      rcases ended with state | state <;> simp [state]

/-- A token presented twice in time succeeds twice. -/
theorem singleUse_broken : ¬∀ calls, Clocked calls → SingleUse calls := by
  intro always
  have clocked : Clocked
      [⟨0, .createRequest samplePeer "laptop" sampleToken 300⟩,
        ⟨1, .presentToken samplePeer sampleToken⟩, ⟨2, .presentToken samplePeer sampleToken⟩] := by
    refine ⟨by decide, ?_⟩
    intro call member peer name token ttl op
    simp only [List.mem_cons, List.not_mem_nil, or_false] at member
    rcases member with rfl | rfl | rfl
    · cases op
      decide
    · cases op
    · cases op
  obtain ⟨create, member, -⟩ := (always _ clocked).1
    [⟨0, .createRequest samplePeer "laptop" sampleToken 300⟩]
    ⟨1, .presentToken samplePeer sampleToken⟩ [] ⟨2, .presentToken samplePeer sampleToken⟩ []
    samplePeer rfl ⟨sampleToken, rfl, rfl⟩ ⟨sampleToken, rfl, rfl⟩
  cases member

end FileDrop.Handshake
