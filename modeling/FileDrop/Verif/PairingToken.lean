import FileDrop.Pairing.Token
import FileDrop.Verif.Handshake

/-!
# What a pairing token opens

A presentation succeeds with one text only, the token that the peer was last registered with. A generated
token has the format that is asked of a presented one, and tokens of different bytes differ, so one that
was generated for another request opens nothing.
-/
namespace FileDrop.PairingToken
open FileDrop Runs Handshake
open Unix (Bytes)

/-! ## The stored token -/

/-- The last `create_request` for the peer gave this token. -/
def LastRegistered (peer : Uuid) (token : String) (calls : List PairingCall) : Prop :=
  Since (fun _ call => ∃ name ttl, call.op = .createRequest peer name token ttl) (·.creates peer) calls

/-- A call that registers nothing for the peer leaves its token as it is. -/
theorem token_kept {machine : PairingStateMachine} {call : PairingCall} {peer : Uuid}
    (other : ¬call.creates peer) :
    ((machine.apply call).get peer).map (·.token) = (machine.get peer).map (·.token) := by
  have move := machine.apply_move call peer
  generalize machine.get peer = before at move
  generalize (machine.apply call).get peer = after at move
  cases move with
  | created _ name token ttl op => exact absurd ⟨name, token, ttl, op⟩ other
  | kept | presented | expired | decided => rfl

/-- The token of a peer's request is the one it was last registered with. -/
theorem stored_iff (calls : List PairingCall) (peer : Uuid) (token : String) :
    ((reached calls).get peer).map (·.token) = some token ↔ LastRegistered peer token calls := by
  unfold LastRegistered
  induction calls using List.reverseRecOn with
  | nil =>
    refine iff_of_false nofun ?_
    rintro ⟨earlier, call, between, split, -⟩
    exact List.append_ne_nil_of_right_ne_nil earlier (List.cons_ne_nil call between) split.symm
  | append_singleton calls call ih =>
    rw [since_snoc, reached_snoc]
    by_cases creates : call.creates peer
    · obtain ⟨name, registered, ttl, op⟩ := creates
      have stored : ((reached calls).apply call).get peer = some
          { peerDeviceId := peer, peerName := name, token := registered, state := .pending,
            createdAt := call.now, expiresAt := i64Add call.now ttl } := by
        unfold PairingStateMachine.apply PairingStateMachine.reply
        rw [op]
        exact PairingStateMachine.get_insert_self _ _ _
      rw [stored]
      constructor
      · intro same
        exact .inl ⟨name, ttl, Option.some.inj same ▸ op⟩
      · rintro (⟨name', ttl', same⟩ | ⟨-, kept⟩)
        · obtain ⟨-, -, rfl, -⟩ := PairingOp.createRequest.inj (op.symm.trans same)
          rfl
        · exact absurd ⟨name, registered, ttl, op⟩ kept
    · rw [token_kept creates, ih]
      constructor
      · exact fun before => .inr ⟨before, creates⟩
      · rintro (⟨name, ttl, op⟩ | ⟨before, -⟩)
        · exact absurd ⟨name, token, ttl, op⟩ creates
        · exact before

/-- A presentation succeeds exactly with the token of the peer's request, in time. -/
theorem presentToken_ok_iff (machine : PairingStateMachine) (now : Int) (peer : Uuid)
    (presented : String) :
    (machine.presentToken now peer presented).1 = .ok () ↔
      ∃ request, machine.get peer = some request ∧ request.token = presented ∧
        now < request.expiresAt := by
  have exact := succeeds_iff machine ⟨now, .presentToken peer presented⟩ peer
  constructor
  · intro accepted
    obtain ⟨request, found, op, inTime⟩ := exact.mp ⟨presented, rfl, accepted⟩
    obtain ⟨-, rfl⟩ := PairingOp.presentToken.inj op
    exact ⟨request, found, rfl, inTime⟩
  · rintro ⟨request, found, rfl, inTime⟩
    obtain ⟨token, op, accepted⟩ := exact.mpr ⟨request, found, rfl, inTime⟩
    obtain ⟨-, rfl⟩ := PairingOp.presentToken.inj op
    exact accepted

/-- So in a run it succeeds only with the token of the last registration. -/
theorem lastRegistered_of_ok {calls : List PairingCall} {now : Int} {peer : Uuid} {presented : String}
    (accepted : ((reached calls).presentToken now peer presented).1 = .ok ()) :
    LastRegistered peer presented calls := by
  obtain ⟨request, found, same, -⟩ := (presentToken_ok_iff _ now peer presented).mp accepted
  apply (stored_iff calls peer presented).mp
  rw [found, ← same]
  rfl

/-- The comparison accepts exactly the same bytes, which are the same text. In every run a presentation
succeeds only with the token that is stored in the peer's request, and that is the token of the last
`create_request` for the peer. -/
theorem only_stored_token :
    (∀ a b, (tokensMatch a b = true ↔ asBytes a = asBytes b) ∧ (asBytes a = asBytes b ↔ a = b)) ∧
      ∀ calls now peer presented, ((reached calls).presentToken now peer presented).1 = .ok () →
        (∃ request, (reached calls).get peer = some request ∧ request.token = presented) ∧
          LastRegistered peer presented calls := by
  refine ⟨fun a b => ?_, fun calls now peer presented accepted => ⟨?_, lastRegistered_of_ok accepted⟩⟩
  · have texts : asBytes a = asBytes b ↔ a = b := ⟨asBytes_injective, congrArg asBytes⟩
    exact ⟨(tokensMatch_eq_true a b).trans texts.symm, texts⟩
  · obtain ⟨request, found, same, -⟩ := (presentToken_ok_iff _ now peer presented).mp accepted
    exact ⟨request, found, same⟩

/-- The token of a second registration is accepted, and it is the stored one. -/
theorem only_stored_token_second :
    LastRegistered samplePeer "second" [⟨0, .createRequest samplePeer "laptop" sampleToken 300⟩,
      ⟨1, .createRequest samplePeer "laptop" "second" 300⟩] :=
  (only_stored_token.2 _ 2 samplePeer "second" (by decide)).2

/-! ## Generated tokens -/

section

variable {encode : Bytes → String}

/-- A character of the URL-safe alphabet is one printable byte that the format check accepts. -/
theorem urlSafe_byte : ∀ sextet,
    (32 ≤ (Base64.urlSafe sextet).toNat ∧ (Base64.urlSafe sextet).toNat < 127) ∧
      (isAsciiAlphanumeric (.ofNat (Base64.urlSafe sextet).toNat) ||
        UInt8.ofNat (Base64.urlSafe sextet).toNat == 45 ||
        UInt8.ofNat (Base64.urlSafe sextet).toNat == 95) = true := by
  decide

/-- The bytes of a generated token: one for each character. -/
theorem asBytes_generated (documented : UrlSafeNoPad encode) (bytes : Vector UInt8 tokenByteLen) :
    asBytes (generatePairingToken encode bytes) =
      (generatePairingToken encode bytes).toList.map fun c => .ofNat c.toNat := by
  have printable : Printable (generatePairingToken encode bytes).toList := by
    intro c member
    obtain ⟨sextet, rfl⟩ := (documented bytes.toList).mem member
    exact (urlSafe_byte sextet).1
  have spelled := asBytes_printable printable
  rwa [String.ofList_toList] at spelled

/-- A generated token has the format of one. -/
theorem validate_generated (documented : UrlSafeNoPad encode) (bytes : Vector UInt8 tokenByteLen) :
    validateTokenFormat (generatePairingToken encode bytes) = .ok () := by
  have length : (asBytes (generatePairingToken encode bytes)).length = expectedEncodedLen := by
    have letters := (documented bytes.toList).length
    rw [Vector.length_toList] at letters
    rw [asBytes_generated documented, List.length_map]
    exact letters
  have charset : (asBytes (generatePairingToken encode bytes)).all fun byte =>
      isAsciiAlphanumeric byte || byte == 45 || byte == 95 := by
    rw [asBytes_generated documented, List.all_map, List.all_eq_true]
    intro c member
    obtain ⟨sextet, rfl⟩ := (documented bytes.toList).mem member
    exact (urlSafe_byte sextet).2
  rw [validateTokenFormat, if_neg (not_not.mpr length), if_pos charset]

/-- Different bytes make different tokens. -/
theorem generate_injective (documented : UrlSafeNoPad encode) :
    Function.Injective (generatePairingToken encode) := by
  intro first second same
  have texts : Base64.Encodes Base64.urlSafe second.toList (encode first.toList) := by
    unfold generatePairingToken at same
    rw [same]
    exact documented second.toList
  have lists := (documented first.toList).injective Base64.urlSafe_injective texts
  exact Vector.toList_inj.mp lists

/-- Every generated token passes the format check, and tokens of different bytes differ, which the
comparison notices. -/
theorem generated_apart (documented : UrlSafeNoPad encode) :
    (∀ bytes, validateTokenFormat (generatePairingToken encode bytes) = .ok ()) ∧
      ∀ first second, first ≠ second →
        generatePairingToken encode first ≠ generatePairingToken encode second ∧
          tokensMatch (generatePairingToken encode first) (generatePairingToken encode second) =
            false := by
  refine ⟨validate_generated documented, fun first second apart => ?_⟩
  have tokens := (generate_injective documented).ne apart
  refine ⟨tokens, ?_⟩
  rw [← Bool.not_eq_true, tokensMatch_eq_true]
  exact tokens

/-- Tokens whose last bytes differ are told apart. -/
theorem generated_apart_last :
    validateTokenFormat (generatePairingToken (Base64.encode Base64.urlSafe) (.replicate _ 0)) = .ok () ∧
      tokensMatch (generatePairingToken (Base64.encode Base64.urlSafe) (.replicate _ 0))
        (generatePairingToken (Base64.encode Base64.urlSafe)
          ((Vector.replicate _ 0).set 31 1 (by decide))) = false := by
  have documented : UrlSafeNoPad (Base64.encode Base64.urlSafe) :=
    fun bytes => Base64.encodes_iff.mpr rfl
  have apart := generated_apart documented
  exact ⟨apart.1 _, (apart.2 _ _ (by decide)).2⟩

/-- Once a peer is registered with a generated token, of all generated tokens only this one is accepted,
until the request expires. -/
theorem generated_accepted_iff (documented : UrlSafeNoPad encode) {calls : List PairingCall} {peer : Uuid}
    {drawn : Vector UInt8 tokenByteLen}
    (registered : LastRegistered peer (generatePairingToken encode drawn) calls) (now : Int)
    (bytes : Vector UInt8 tokenByteLen) :
    ((reached calls).presentToken now peer (generatePairingToken encode bytes)).1 = .ok () ↔
      bytes = drawn ∧ ∃ request, (reached calls).get peer = some request ∧ now < request.expiresAt := by
  have stored := (stored_iff calls peer _).mpr registered
  obtain ⟨request, found, token⟩ := Option.map_eq_some_iff.mp stored
  rw [presentToken_ok_iff]
  constructor
  · rintro ⟨other, same, presented, inTime⟩
    obtain rfl := Option.some.inj (found.symm.trans same)
    exact ⟨generate_injective documented (presented.symm.trans token), request, found, inTime⟩
  · rintro ⟨rfl, other, same, inTime⟩
    obtain rfl := Option.some.inj (found.symm.trans same)
    exact ⟨request, found, token, inTime⟩

end

end FileDrop.PairingToken
