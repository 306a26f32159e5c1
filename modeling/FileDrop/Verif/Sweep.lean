import FileDrop.Foundation.Erasure
import FileDrop.Pairing.State

/-!
# Sweeping is unobservable

A sweep rejects the requests that have expired and are not paired; `present_token` rejects them when
it meets them. A machine that is swept and one that is not differ only in such requests, and no call
can tell: a token is refused for its age before the state is looked at, a confirmation overwrites
the state, and neither request is paired.
-/
namespace FileDrop.Sweep

/-- A call to a machine. `is_paired` takes no clock reading; `now` is the time it is made at. -/
inductive Call where
  | method (call : PairingCall)
  | isPaired (now : Int) (peerDeviceId : Uuid)
  deriving DecidableEq

/-- When a call is made. -/
def Call.now : Call → Int
  | .method call => call.now
  | .isPaired now _ => now

/-- A call that is not a sweep. -/
def Call.answered : Call → Bool
  | .method ⟨_, .sweepExpired⟩ => false
  | _ => true

/-- What a call returns. -/
inductive Answer where
  | reply (reply : PairingReply)
  | paired (result : Bool)

/-- One call. -/
def answer (machine : PairingStateMachine) : Call → Answer × PairingStateMachine
  | .method call => (.reply (machine.reply call).1, (machine.reply call).2)
  | .isPaired _ peer => (.paired (machine.isPaired peer), machine)

/-! ## Machines that answer alike -/

/-- Requests that answer alike from a time on: the same, or both out of time and not paired. -/
inductive Alike (now : Int) : Option PairingRequest → Option PairingRequest → Prop where
  | same (request : Option PairingRequest) : Alike now request request
  | lapsed (request : PairingRequest) (state : PairingState) (late : request.expiresAt ≤ now)
      (swept : request.state ≠ .paired) (kept : state ≠ .paired) :
      Alike now (some request) (some { request with state })

/-- Machines whose requests answer alike. -/
def Agree (now : Int) (swept plain : PairingStateMachine) : Prop :=
  ∀ peer, Alike now (swept.requests peer) (plain.requests peer)

section

variable {now : Int} {swept plain : PairingStateMachine} {peer : Uuid}

/-- Requests that answer alike go on to. -/
theorem Alike.later {afterwards : Int} {left right : Option PairingRequest}
    (passed : now ≤ afterwards) (alike : Alike now left right) : Alike afterwards left right := by
  cases alike with
  | same => exact .same _
  | lapsed request state late swept kept =>
    exact .lapsed request state (Int.le_trans late passed) swept kept

/-- The same new request on both sides. -/
theorem Agree.insert (agree : Agree now swept plain) (request : PairingRequest) :
    Agree now (swept.insert peer request) (plain.insert peer request) := by
  intro other
  by_cases same : other = peer
  · subst same
    simp only [PairingStateMachine.insert, Function.update_self]
    exact .same _
  · simp only [PairingStateMachine.insert, Function.update_of_ne same]
    exact agree other

/-- A token is refused for its age on both sides, or compared with the same token. -/
theorem Agree.presentToken (agree : Agree now swept plain) (token : String) :
    (swept.presentToken now peer token).1 = (plain.presentToken now peer token).1 ∧
      Agree now (swept.presentToken now peer token).2 (plain.presentToken now peer token).2 := by
  have alike := agree peer
  unfold PairingStateMachine.presentToken
  generalize swept.requests peer = left at alike ⊢
  generalize plain.requests peer = right at alike ⊢
  cases alike with
  | same =>
    cases left with
    | none => exact ⟨rfl, agree⟩
    | some request =>
      by_cases late : request.isExpired now
      · simp only [late, if_true]
        exact ⟨trivial, agree.insert _⟩
      · by_cases wrong : !tokensMatch request.token token
        · simp only [late, wrong, if_true, Bool.false_eq_true, if_false]
          exact ⟨trivial, agree⟩
        · simp only [late, wrong, Bool.false_eq_true, if_false]
          exact ⟨trivial, agree.insert _⟩
  | lapsed request state late =>
    have old : request.isExpired now = true := decide_eq_true late
    have lapsed : { request with state := state }.isExpired now = true := old
    simp only [old, lapsed, if_true]
    exact ⟨trivial, agree.insert _⟩

/-- A confirmation overwrites the only field that may differ. -/
theorem Agree.confirm (agree : Agree now swept plain) (accept : Bool) :
    (swept.confirm peer accept).1 = (plain.confirm peer accept).1 ∧
      Agree now (swept.confirm peer accept).2 (plain.confirm peer accept).2 := by
  have alike := agree peer
  unfold PairingStateMachine.confirm
  generalize swept.requests peer = left at alike ⊢
  generalize plain.requests peer = right at alike ⊢
  cases alike with
  | same =>
    cases left with
    | none => exact ⟨rfl, agree⟩
    | some request => exact ⟨rfl, agree.insert _⟩
  | lapsed request state => exact ⟨rfl, agree.insert _⟩

/-- A request that differs is paired on neither side. -/
theorem Agree.isPaired (agree : Agree now swept plain) :
    swept.isPaired peer = plain.isPaired peer := by
  have alike := agree peer
  unfold PairingStateMachine.isPaired
  generalize swept.requests peer = left at alike ⊢
  generalize plain.requests peer = right at alike ⊢
  cases alike with
  | same => rfl
  | lapsed request state _ swept kept =>
    have left : (request.state == .paired) = false := beq_eq_false_iff_ne.mpr swept
    have right : (state == .paired) = false := beq_eq_false_iff_ne.mpr kept
    simp only [left, right]

/-- A sweep on one side only lets requests lapse. -/
theorem Agree.sweepExpired (agree : Agree now swept plain) :
    Agree now (swept.sweepExpired now) plain := by
  intro peer
  have alike := agree peer
  show Alike now ((swept.requests peer).map (PairingStateMachine.sweepRequest now)) _
  generalize swept.requests peer = left at alike ⊢
  generalize plain.requests peer = right at alike ⊢
  cases alike with
  | same =>
    cases left with
    | none => exact .same _
    | some request =>
      by_cases reject : request.state != .paired && request.isExpired now
      · have unpaired : request.state ≠ .paired := bne_iff_ne.mp (Bool.and_eq_true_iff.mp reject).1
        have late : request.expiresAt ≤ now := of_decide_eq_true (Bool.and_eq_true_iff.mp reject).2
        simp only [Option.map_some, PairingStateMachine.sweepRequest, reject, if_true]
        exact .lapsed { request with state := .rejected } request.state late (by simp) unpaired
      · simp only [Option.map_some, PairingStateMachine.sweepRequest, reject, Bool.false_eq_true,
          if_false]
        exact .same _
  | lapsed request state late swept kept =>
    by_cases reject : request.state != .paired && request.isExpired now
    · simp only [Option.map_some, PairingStateMachine.sweepRequest, reject, if_true]
      exact .lapsed { request with state := .rejected } state late (by simp) kept
    · simp only [Option.map_some, PairingStateMachine.sweepRequest, reject, Bool.false_eq_true,
        if_false]
      exact .lapsed request state late swept kept

end

/-- A machine that is swept is simulated by one that is not. -/
theorem sweeps_erased : Erasure.Erases answer Call.answered Call.now Agree where
  later passed agree peer := (agree peer).later passed
  seen {call swept plain} shown agree := by
    cases call with
    | isPaired now peer => exact ⟨congrArg Answer.paired agree.isPaired, agree⟩
    | method call =>
      obtain ⟨now, op⟩ := call
      cases op with
      | createRequest peer name token ttl => exact ⟨rfl, agree.insert _⟩
      | presentToken peer token =>
        obtain ⟨same, after⟩ := agree.presentToken token
        exact ⟨congrArg (fun result => Answer.reply (.presented result)) same, after⟩
      | confirm peer accept =>
        obtain ⟨same, after⟩ := agree.confirm accept
        exact ⟨congrArg (fun result => Answer.reply (.confirmed result)) same, after⟩
      | sweepExpired => cases shown
  unseen {call swept plain} hidden agree := by
    cases call with
    | isPaired => cases hidden
    | method call =>
      obtain ⟨now, op⟩ := call
      cases op with
      | sweepExpired => exact agree.sweepExpired
      | createRequest | presentToken | confirm => cases hidden

/-- From any machine, at non-decreasing times: the calls that are not sweeps are answered as if no
sweep had been made. -/
theorem sweep_unobservable (machine : PairingStateMachine) (calls : List Call)
    (ordered : calls.Pairwise fun first second => first.now ≤ second.now) :
    Erasure.observed answer Call.answered machine calls =
      Erasure.answers answer machine (calls.filter Call.answered) :=
  sweeps_erased.observed ordered fun _ _ _ => .same _

/-- A request that a sweep rejects before its token is presented and the user accepts it. -/
def sampleCalls : List Call :=
  [.method ⟨0, .createRequest ⟨1⟩ "phone" "token" 60⟩, .method ⟨90, .sweepExpired⟩,
    .method ⟨95, .presentToken ⟨1⟩ "token"⟩, .isPaired 96 ⟨1⟩, .method ⟨97, .confirm ⟨1⟩ true⟩,
    .method ⟨98, .sweepExpired⟩, .isPaired 99 ⟨1⟩]

theorem sweep_unobservable_sample :
    Erasure.observed answer Call.answered .new sampleCalls =
      Erasure.answers answer .new (sampleCalls.filter Call.answered) :=
  sweep_unobservable .new sampleCalls (by decide)

end FileDrop.Sweep
