import FileDrop.Flutter.PairingPrompt
import FileDrop.Verif.Handshake

/-!
# No pairing without the user

A peer is paired only because the user has tapped Accept on a sheet that showed a request of that peer, and
the request was made by `pair_device`. The sheets keep up as long as the user gives one answer at a time, and
waits for it before the next or before swiping a sheet away: then no request is without a sheet in front of
it, and an answer closes the sheet that it was given on.
-/
namespace FileDrop.Flutter.Consent
open FileDrop PairingPrompts

variable {kind : PairingRequestedEvent → Prop} {prompts after : PairingPrompts}

/-! ## What the sheets show -/

/-- Every request that waits, or that a sheet shows, is of a kind. -/
structure Shows (kind : PairingRequestedEvent → Prop) (prompts : PairingPrompts) : Prop where
  requests : ∀ request ∈ prompts.requests, kind request
  sheet : ∀ sheet, prompts.sheet = some sheet → kind sheet.request

/-- The listener opens a sheet for the first request, or it does nothing. -/
theorem listen_cases (prompts : PairingPrompts) :
    (prompts.listen = prompts ∧
      (prompts.requests = [] ∨ prompts.shell = false ∨ prompts.sheet ≠ none)) ∨
      ∃ request rest, prompts.requests = request :: rest ∧ prompts.shell = true ∧ prompts.sheet = none ∧
        prompts.listen = { prompts with
          sheet := some ⟨prompts.sheets, request⟩, sheets := prompts.sheets + 1 } := by
  unfold PairingPrompts.listen
  split
  · rename_i none
    exact .inl ⟨rfl, .inl none⟩
  · rename_i request rest requests
    split
    · rename_i free
      exact .inr ⟨request, rest, requests, free.1, free.2, rfl⟩
    · rename_i busy
      refine .inl ⟨rfl, .inr ?_⟩
      by_cases shell : prompts.shell = true
      · exact .inr fun closed => busy ⟨shell, closed⟩
      · exact .inl (Bool.eq_false_iff.mpr shell)

/-- The listener answers nothing. -/
@[simp] theorem listen_answers (prompts : PairingPrompts) : prompts.listen.answers = prompts.answers := by
  obtain ⟨quiet, -⟩ | ⟨request, rest, -, -, -, opens⟩ := listen_cases prompts
  · rw [quiet]
  · rw [opens]

/-- The notifier answers nothing. -/
@[simp] theorem dismiss_answers (prompts : PairingPrompts) (deviceId : String) :
    (prompts.dismiss deviceId).answers = prompts.answers := listen_answers _

/-- Closing a sheet answers nothing. -/
@[simp] theorem close_answers (prompts : PairingPrompts) : prompts.close.answers = prompts.answers := by
  unfold close
  split
  · rfl
  · exact dismiss_answers _ _

/-- A pop of the navigator answers nothing. -/
@[simp] theorem pop_answers (prompts : PairingPrompts) : prompts.pop.answers = prompts.answers := by
  unfold pop
  split
  · rfl
  · exact close_answers prompts

/-- The listener shows what waits. -/
theorem Shows.listen (shows : Shows kind prompts) : Shows kind prompts.listen := by
  obtain ⟨quiet, -⟩ | ⟨request, rest, requests, -, -, opens⟩ := listen_cases prompts
  · rw [quiet]
    exact shows
  · rw [opens]
    refine ⟨shows.requests, fun sheet opened => ?_⟩
    obtain rfl := Option.some.inj opened
    exact shows.requests request (requests ▸ List.mem_cons_self)

/-- A request of the kind may come in. -/
theorem Shows.receive (shows : Shows kind prompts) {event : PairingRequestedEvent} (new : kind event) :
    Shows kind (prompts.receive event) := by
  have both : Shows kind { prompts with requests := prompts.requests ++ [event] } :=
    ⟨List.forall_mem_append.mpr ⟨shows.requests, List.forall_mem_singleton.mpr new⟩, shows.sheet⟩
  exact both.listen

/-- Dismissing leaves fewer. -/
theorem Shows.dismiss (shows : Shows kind prompts) (deviceId : String) :
    Shows kind (prompts.dismiss deviceId) := by
  have fewer : Shows kind { prompts with requests := prompts.requests.filter (·.deviceId ≠ deviceId) } :=
    ⟨fun request member => shows.requests request (List.mem_filter.mp member).1, shows.sheet⟩
  exact fewer.listen

/-- Closing a sheet leaves fewer. -/
theorem Shows.close (shows : Shows kind prompts) : Shows kind prompts.close := by
  unfold PairingPrompts.close
  split
  · exact shows
  · have closed : Shows kind { prompts with sheet := none } := ⟨shows.requests, nofun⟩
    exact closed.dismiss _

/-- A pop of the navigator leaves no more. -/
theorem Shows.pop (shows : Shows kind prompts) : Shows kind prompts.pop := by
  unfold PairingPrompts.pop
  split
  · exact ⟨shows.requests, shows.sheet⟩
  · exact shows.close

/-! ## Where an answer comes from -/

variable {uuid : Uuid.Parser} {deviceId : Uuid} {deviceName : String} {past : List PromptMove}
variable {app next : PairingApp}
  {peer : Uuid}

/-- A run of any moves. -/
abbrev run (uuid : Uuid.Parser) (deviceId : Uuid) (deviceName : String) (moves : List PromptMove) :
    Option PairingApp :=
  Machine.run (PairingApp.step uuid deviceId deviceName) (fun _ _ => True) moves .new

/-- The device has been asked to pair with the peer of this identifier. -/
def Requested (past : List PromptMove) (id : String) : Prop :=
  ∃ choice peer name, .pairDevice choice peer name ∈ past ∧ peer.toText = id

/-- The user has tapped Accept on a sheet that showed a request of this identifier, and the device had been
asked for it. -/
def Consented (uuid : Uuid.Parser) (deviceId : Uuid) (deviceName : String) (past : List PromptMove)
    (id : String) : Prop :=
  ∃ earlier later middle sheet, past = earlier ++ .tap true :: later ∧
    run uuid deviceId deviceName earlier = some middle ∧ middle.prompts.sheet = some sheet ∧
    sheet.request.deviceId = id ∧ Requested earlier id

/-- What was asked for stays so. -/
theorem Requested.snoc {id : String} (requested : Requested past id) (move : PromptMove) :
    Requested (past ++ [move]) id := by
  obtain ⟨choice, peer, name, member, same⟩ := requested
  exact ⟨choice, peer, name, List.mem_append_left _ member, same⟩

/-- A consent stays one. -/
theorem Consented.snoc {id : String} (consented : Consented uuid deviceId deviceName past id)
    (move : PromptMove) : Consented uuid deviceId deviceName (past ++ [move]) id := by
  obtain ⟨earlier, later, middle, sheet, split, rest⟩ := consented
  exact ⟨earlier, later ++ [move], middle, sheet, by rw [split, List.append_assoc, List.cons_append], rest⟩

/-- Who is consented to has been asked for. -/
theorem Consented.requested {id : String} (consented : Consented uuid deviceId deviceName past id) :
    Requested past id := by
  obtain ⟨earlier, later, middle, sheet, split, -, -, -, choice, peer, name, member, same⟩ := consented
  exact ⟨choice, peer, name, split ▸ List.mem_append_left _ member, same⟩

/-- Where everything in the app comes from. -/
structure Provenance (uuid : Uuid.Parser) (deviceId : Uuid) (deviceName : String)
    (past : List PromptMove) (app : PairingApp) : Prop where
  ran : run uuid deviceId deviceName past = some app
  stream : ∀ event ∈ app.stream, Requested past event.deviceId
  shows : Shows (fun request => Requested past request.deviceId) app.prompts
  answers : ∀ call ∈ app.prompts.answers, call.accepted = true →
    Consented uuid deviceId deviceName past call.deviceId
  paired : ∀ peer, app.pairing.isPaired peer = true → Consented uuid deviceId deviceName past peer.toText

/-- One move more: what the move adds has to be accounted for. -/
theorem Provenance.snoc (origin : Provenance uuid deviceId deviceName past app) {move : PromptMove}
    (stepped : app.step uuid deviceId deviceName move = some next)
    (stream : ∀ event ∈ next.stream, event ∈ app.stream ∨ Requested (past ++ [move]) event.deviceId)
    (shows : Shows (fun request => Requested (past ++ [move]) request.deviceId) next.prompts)
    (answers : ∀ call ∈ next.prompts.answers, call.accepted = true →
      (∃ old ∈ app.prompts.answers, old.accepted = true ∧ old.deviceId = call.deviceId) ∨
        Consented uuid deviceId deviceName (past ++ [move]) call.deviceId)
    (paired : ∀ peer, next.pairing.isPaired peer = true → app.pairing.isPaired peer = false →
      Consented uuid deviceId deviceName (past ++ [move]) peer.toText) :
    Provenance uuid deviceId deviceName (past ++ [move]) next where
  ran := by
    rw [run, Machine.run_append]
    show (run uuid deviceId deviceName past).bind _ = some next
    rw [origin.ran]
    simp only [Option.bind_some, Machine.run, if_true, stepped]
  stream event member := by
    rcases stream event member with old | new
    · exact (origin.stream event old).snoc move
    · exact new
  shows := shows
  answers call member accepted := by
    rcases answers call member accepted with ⟨old, there, yes, same⟩ | new
    · exact same ▸ (origin.answers old there yes).snoc move
    · exact new
  paired peer now := by
    cases before : app.pairing.isPaired peer with
    | true => exact (origin.paired peer before).snoc move
    | false => exact paired peer now before

/-- What is shown stays accounted for. -/
theorem Provenance.shown (origin : Provenance uuid deviceId deviceName past app) (move : PromptMove) :
    Shows (fun request => Requested (past ++ [move]) request.deviceId) app.prompts :=
  ⟨fun request member => (origin.shows.requests request member).snoc move,
    fun sheet opened => (origin.shows.sheet sheet opened).snoc move⟩

/-- A call of the engine that decides nothing pairs nobody. -/
theorem unpaired_apply {pairing : PairingStateMachine} {call : PairingCall}
    (undecided : ∀ accept, call.op ≠ .confirm peer accept) (now : (pairing.apply call).isPaired peer = true)
    (before : pairing.isPaired peer = false) : False :=
  undecided true (Handshake.yieldsPaired_accepts (.inl ⟨before, now⟩)).1

/-- A button leaves a call with the device of its sheet. -/
theorem tap_cases {accepted : Bool} (tapped : prompts.tap accepted = some after) :
    ∃ sheet, prompts.sheet = some sheet ∧ after = { prompts.dismiss sheet.request.deviceId with
      answers := prompts.answers ++ [⟨sheet.number, sheet.request.deviceId, accepted, none⟩] } := by
  obtain ⟨sheet, opened, rfl⟩ := Option.map_eq_some_iff.mp tapped
  refine ⟨sheet, opened, ?_⟩
  simp only [dismiss_answers]

/-- A call of a button that returns is gone, and pops if it has succeeded. -/
theorem complete_cases {place : Nat} (completed : prompts.complete place = some after) :
    ∃ call succeeded, prompts.answers[place]? = some call ∧ call.result = some succeeded ∧
      after = if succeeded then { prompts with answers := prompts.answers.eraseIdx place }.pop
        else { prompts with answers := prompts.answers.eraseIdx place } := by
  obtain ⟨succeeded, known, rfl⟩ := Option.map_eq_some_iff.mp completed
  obtain ⟨call, there, result⟩ := Option.bind_eq_some_iff.mp known
  exact ⟨call, succeeded, there, result, rfl⟩

/-- The engine carries out the call of a button, which keeps its device and its decision. -/
theorem answer_cases (uuid : Uuid.Parser) (pairing : PairingStateMachine) (call : PairingAnswer) :
    ∃ result, (PairingApp.answer uuid pairing call).1 = { call with result := some result } ∧
      ((PairingApp.answer uuid pairing call).2 = pairing ∨ ∃ target, uuid.parseStr call.deviceId = some target ∧
        (PairingApp.answer uuid pairing call).2 = pairing.apply ⟨0, .confirm target call.accepted⟩) := by
  unfold PairingApp.answer
  cases uuid.parseStr call.deviceId with
  | none => exact ⟨false, rfl, .inl rfl⟩
  | some target => exact ⟨_, rfl, .inr ⟨target, rfl, rfl⟩⟩

/-- The engine has carried out a call of a button. -/
theorem confirm_cases {place : Nat} (stepped : app.step uuid deviceId deviceName (.confirm place) = some next) :
    ∃ call, app.prompts.answers[place]? = some call ∧
      next = { app with
        pairing := (PairingApp.answer uuid app.pairing call).2
        prompts := { app.prompts with
          answers := app.prompts.answers.set place (PairingApp.answer uuid app.pairing call).1 } } := by
  simp only [PairingApp.step] at stepped
  split at stepped
  · rename_i sheet deviceId accepted there
    exact ⟨_, there, (Option.some.inj stepped).symm⟩
  · cases stepped

/-- The answers that were there need nothing new. -/
theorem answers_kept {move : PromptMove} {answers : List PairingAnswer}
    (same : answers = app.prompts.answers) :
    ∀ call ∈ answers, call.accepted = true →
      (∃ old ∈ app.prompts.answers, old.accepted = true ∧ old.deviceId = call.deviceId) ∨
        Consented uuid deviceId deviceName (past ++ [move]) call.deviceId :=
  fun call member accepted => .inl ⟨call, same ▸ member, accepted, rfl⟩

/-- Nor does a peer that stays as it was. -/
theorem pairing_kept {move : PromptMove} (peer : Uuid) (now : app.pairing.isPaired peer = true)
    (before : app.pairing.isPaired peer = false) :
    Consented uuid deviceId deviceName (past ++ [move]) peer.toText := by
  rw [now] at before
  cases before

/-! ### The moves, one by one -/

/-- `pair_device` makes a request, and emits its event. -/
theorem Provenance.pairDevice (origin : Provenance uuid deviceId deviceName past app) {choice : PairChoice}
    {name : String} (stepped : app.step uuid deviceId deviceName (.pairDevice choice peer name) = some next) :
    Provenance uuid deviceId deviceName (past ++ [.pairDevice choice peer name]) next := by
  have whole := stepped
  cases stepped
  refine origin.snoc whole (fun event member => ?_) (origin.shown _) (answers_kept rfl)
    fun other now before => ?_
  · rcases List.mem_append.mp member with old | new
    · exact .inl old
    · rw [List.mem_singleton.mp new]
      exact .inr ⟨choice, peer, name, List.mem_append_right _ List.mem_cons_self, rfl⟩
  · have applied : (app.pairing.apply
        ⟨choice.created, .createRequest peer name choice.token 300⟩).isPaired other = true := now
    exact (unpaired_apply (fun accept same => by cases same) applied before).elim

/-- The other calls of the engine decide nothing. -/
theorem Provenance.engine (origin : Provenance uuid deviceId deviceName past app) {call : PairingCall}
    (stepped : app.step uuid deviceId deviceName (.engine call) = some next) :
    Provenance uuid deviceId deviceName (past ++ [.engine call]) next := by
  have whole := stepped
  simp only [PairingApp.step] at stepped
  split at stepped
  · rename_i beside
    cases stepped
    refine origin.snoc whole (fun event member => .inl member) (origin.shown _) (answers_kept rfl)
      fun other now before => (unpaired_apply (fun accept same => ?_) now before).elim
    rw [same] at beside
    cases beside
  · cases stepped

/-- An event that is delivered was emitted. -/
theorem Provenance.deliver (origin : Provenance uuid deviceId deviceName past app)
    (stepped : app.step uuid deviceId deviceName .deliver = some next) :
    Provenance uuid deviceId deviceName (past ++ [.deliver]) next := by
  have whole := stepped
  simp only [PairingApp.step] at stepped
  split at stepped
  · cases stepped
  · rename_i event stream arrived
    cases stepped
    have new : Requested (past ++ [.deliver]) event.deviceId :=
      (origin.stream event (arrived ▸ List.mem_cons_self)).snoc _
    exact origin.snoc whole (fun other member => .inl (arrived ▸ List.mem_cons_of_mem _ member))
      ((origin.shown _).receive new) (answers_kept (listen_answers _)) pairing_kept

/-- An event that is lost adds nothing. -/
theorem Provenance.lose (origin : Provenance uuid deviceId deviceName past app)
    (stepped : app.step uuid deviceId deviceName .lose = some next) :
    Provenance uuid deviceId deviceName (past ++ [.lose]) next := by
  have whole := stepped
  simp only [PairingApp.step] at stepped
  split at stepped
  · cases stepped
  · rename_i event stream lost
    cases stepped
    exact origin.snoc whole (fun other member => .inl (lost ▸ List.mem_cons_of_mem _ member))
      (origin.shown _) (answers_kept rfl) pairing_kept

/-- A tap on Accept is a consent to what the sheet shows. -/
theorem Provenance.tap (origin : Provenance uuid deviceId deviceName past app) {accepted : Bool}
    (stepped : app.step uuid deviceId deviceName (.tap accepted) = some next) :
    Provenance uuid deviceId deviceName (past ++ [.tap accepted]) next := by
  have whole := stepped
  obtain ⟨prompts, tapped, rfl⟩ := Option.map_eq_some_iff.mp stepped
  obtain ⟨sheet, opened, rfl⟩ := tap_cases tapped
  have dismissed := (origin.shown (.tap accepted)).dismiss sheet.request.deviceId
  refine origin.snoc whole (fun event member => .inl member) ⟨dismissed.requests, dismissed.sheet⟩
    (fun call member yes => ?_) pairing_kept
  rcases List.mem_append.mp member with old | new
  · exact .inl ⟨call, old, yes, rfl⟩
  · obtain rfl := List.mem_singleton.mp new
    obtain rfl : accepted = true := yes
    exact .inr ⟨past, [], app, sheet, rfl, origin.ran, opened, rfl, origin.shows.sheet sheet opened⟩

/-- A swipe answers nothing. -/
theorem Provenance.swipe (origin : Provenance uuid deviceId deviceName past app)
    (stepped : app.step uuid deviceId deviceName .swipe = some next) :
    Provenance uuid deviceId deviceName (past ++ [.swipe]) next := by
  have whole := stepped
  obtain ⟨sheet, -, rfl⟩ := Option.map_eq_some_iff.mp stepped
  exact origin.snoc whole (fun event member => .inl member) (origin.shown _).close
    (answers_kept (close_answers _)) pairing_kept

/-- The engine pairs whom an answer consents to. -/
theorem Provenance.confirm (origin : Provenance uuid deviceId deviceName past app) {place : Nat}
    (stepped : app.step uuid deviceId deviceName (.confirm place) = some next) :
    Provenance uuid deviceId deviceName (past ++ [.confirm place]) next := by
  have whole := stepped
  obtain ⟨call, there, rfl⟩ := confirm_cases stepped
  obtain ⟨result, same, outcome⟩ := answer_cases uuid app.pairing call
  have shown := origin.shown (.confirm place)
  refine origin.snoc whole (fun event member => .inl member) ⟨shown.requests, shown.sheet⟩
    (fun other member yes => ?_) fun target now before => ?_
  · rcases List.mem_or_eq_of_mem_set member with old | new
    · exact .inl ⟨other, old, yes, rfl⟩
    · rw [new, same] at yes ⊢
      exact .inl ⟨call, List.mem_of_getElem? there, yes, rfl⟩
  · rcases outcome with untouched | ⟨named, read, applied⟩
    · rw [untouched] at now
      exact pairing_kept target now before
    · rw [applied] at now
      have accepts := (Handshake.yieldsPaired_accepts (.inl ⟨before, now⟩)).1
      obtain ⟨rfl, yes⟩ := PairingOp.confirm.inj accepts
      have consented := origin.answers call (List.mem_of_getElem? there) yes
      obtain ⟨choice, peer, name, -, text⟩ := consented.requested
      -- the sheet showed the text of an identifier, which is read as that identifier
      rw [← text, uuid.reads] at read
      rw [← Option.some.inj read, text]
      exact consented.snoc _

/-- An answer whose call has returned leaves. -/
theorem Provenance.complete (origin : Provenance uuid deviceId deviceName past app) {place : Nat}
    (stepped : app.step uuid deviceId deviceName (.complete place) = some next) :
    Provenance uuid deviceId deviceName (past ++ [.complete place]) next := by
  have whole := stepped
  obtain ⟨prompts, completed, rfl⟩ := Option.map_eq_some_iff.mp stepped
  obtain ⟨call, succeeded, there, -, rfl⟩ := complete_cases completed
  have fewer : Shows (fun request => Requested (past ++ [.complete place]) request.deviceId)
      { app.prompts with answers := app.prompts.answers.eraseIdx place } :=
    ⟨(origin.shown _).requests, (origin.shown _).sheet⟩
  have left (other : PairingAnswer) (member : other ∈ app.prompts.answers.eraseIdx place)
      (yes : other.accepted = true) :
      (∃ old ∈ app.prompts.answers, old.accepted = true ∧ old.deviceId = other.deviceId) ∨
        Consented uuid deviceId deviceName (past ++ [.complete place]) other.deviceId :=
    .inl ⟨other, List.mem_of_mem_eraseIdx member, yes, rfl⟩
  cases succeeded with
  | true =>
    exact origin.snoc whole (fun event member => .inl member) fewer.pop
      (fun other member => left other (by simpa using member)) pairing_kept
  | false => exact origin.snoc whole (fun event member => .inl member) fewer left pairing_kept

/-- Every move is accounted for. -/
theorem Provenance.step (origin : Provenance uuid deviceId deviceName past app) {move : PromptMove}
    (stepped : app.step uuid deviceId deviceName move = some next) :
    Provenance uuid deviceId deviceName (past ++ [move]) next := by
  cases move with
  | pairDevice choice peer name => exact origin.pairDevice stepped
  | engine call => exact origin.engine stepped
  | deliver => exact origin.deliver stepped
  | lose => exact origin.lose stepped
  | tap accepted => exact origin.tap stepped
  | swipe => exact origin.swipe stepped
  | confirm place => exact origin.confirm stepped
  | complete place => exact origin.complete stepped

/-- Nothing has happened yet. -/
theorem provenance_new : Provenance uuid deviceId deviceName [] .new :=
  ⟨rfl, nofun, ⟨nofun, nofun⟩, nofun, nofun⟩

/-- In every run of the app and its engine: a peer is paired only if the user has tapped Accept while a sheet
showed a request with the identifier of this peer, and the device had been asked to pair with it before. -/
theorem paired_consented {moves : List PromptMove} (ran : run uuid deviceId deviceName moves = some app)
    (paired : app.pairing.isPaired peer = true) :
    ∃ earlier later middle sheet, moves = earlier ++ .tap true :: later ∧
      run uuid deviceId deviceName earlier = some middle ∧ middle.prompts.sheet = some sheet ∧
      sheet.request.deviceId = peer.toText ∧ ∃ choice name, .pairDevice choice peer name ∈ earlier := by
  have origin : Provenance uuid deviceId deviceName moves app := Machine.invariant_of_run provenance_new
    (fun _ _ _ _ origin _ stepped => origin.step stepped) ran
  obtain ⟨earlier, later, middle, sheet, split, began, opened, same, choice, other, name, asked, text⟩ :=
    origin.paired peer paired
  -- two identifiers with one text are the same
  have read : some other = some peer := by rw [← uuid.reads, text, uuid.reads]
  exact ⟨earlier, later, middle, sheet, split, began, opened, same, choice, name,
    Option.some.inj read ▸ asked⟩

/-- A token of the samples. -/
def sampleChoice : PairChoice := ⟨"00112233", 0, ["192.168.1.20"], 0⟩

/-- The user accepts the first of two requests. -/
def sampleMoves : List PromptMove :=
  [.pairDevice sampleChoice ⟨1⟩ "Phone", .deliver, .pairDevice sampleChoice ⟨2⟩ "Tablet", .deliver, .tap true,
    .confirm 0]

/-- The first is paired by the tap. -/
theorem paired_consented_sample : ∃ app, run .allForms ⟨7⟩ "Desk" sampleMoves = some app ∧
    app.pairing.isPaired ⟨1⟩ = true ∧
    ∃ earlier later middle sheet, sampleMoves = earlier ++ .tap true :: later ∧
      run .allForms ⟨7⟩ "Desk" earlier = some middle ∧ middle.prompts.sheet = some sheet ∧
      sheet.request.deviceId = (⟨1⟩ : Uuid).toText ∧
      ∃ choice name, .pairDevice choice ⟨1⟩ name ∈ earlier := by
  have runs : (run .allForms ⟨7⟩ "Desk" sampleMoves).map (·.pairing.isPaired ⟨1⟩) = some true := by
    decide +kernel
  obtain ⟨app, ran, paired⟩ := Option.map_eq_some_iff.mp runs
  exact ⟨app, ran, paired, paired_consented ran paired⟩

/-! ## One answer at a time -/

/-- The user neither answers nor swipes a sheet away while an answer is under way. -/
def Patient (app : PairingApp) : PromptMove → Prop
  | .tap _ | .swipe => app.prompts.answers = []
  | .pairDevice .. | .engine _ | .deliver | .lose | .confirm _ | .complete _ => True

instance (app : PairingApp) (move : PromptMove) : Decidable (Patient app move) := by
  cases move <;> unfold Patient <;> infer_instance

/-- The sheets keep up. -/
structure Attended (prompts : PairingPrompts) : Prop where
  shell : prompts.shell = true
  waiting : prompts.sheet = none → prompts.requests = []
  /-- An answer that is under way was given on the sheet that is open. -/
  answers : prompts.answers = [] ∨ ∃ call sheet, prompts.answers = [call] ∧ prompts.sheet = some sheet ∧
    call.sheet = sheet.number ∧ call.deviceId = sheet.request.deviceId
  fresh : ∀ sheet, prompts.sheet = some sheet → sheet.number < prompts.sheets

/-- The sheet that the listener shows: the one that is open, or else a new one for the first request. -/
theorem listen_sheet (shell : prompts.shell = true) :
    prompts.listen.sheet = prompts.sheet.or (prompts.requests.head?.map (⟨prompts.sheets, ·⟩)) := by
  unfold PairingPrompts.listen
  split
  · rename_i none
    rw [none, List.head?_nil, Option.map_none, Option.or_none]
  · rename_i request rest requests
    rw [requests]
    cases closed : prompts.sheet with
    | none => simp [shell]
    | some sheet => simp [closed]

/-- The listener leaves nothing waiting without a sheet. -/
theorem attended_listen (shell : prompts.shell = true)
    (answers : prompts.answers = [] ∨ ∃ call sheet, prompts.answers = [call] ∧ prompts.sheet = some sheet ∧
      call.sheet = sheet.number ∧ call.deviceId = sheet.request.deviceId)
    (fresh : ∀ sheet, prompts.sheet = some sheet → sheet.number < prompts.sheets) :
    Attended prompts.listen := by
  obtain ⟨quiet, idle⟩ | ⟨request, rest, -, -, closed, opens⟩ := listen_cases prompts
  · rw [quiet]
    refine ⟨shell, fun closed => ?_, answers, fresh⟩
    rcases idle with none | gone | opened
    · exact none
    · rw [shell] at gone
      cases gone
    · exact absurd closed opened
  · rw [opens]
    refine ⟨shell, nofun, ?_, fun sheet opened => ?_⟩
    · refine answers.elim .inl fun ⟨call, sheet, _, opened, _⟩ => ?_
      rw [closed] at opened
      cases opened
    · obtain rfl := Option.some.inj opened
      exact Nat.lt_succ_self _

/-- A request that comes in is attended to. -/
theorem Attended.receive (attended : Attended prompts) (event : PairingRequestedEvent) :
    Attended (prompts.receive event) :=
  attended_listen attended.shell attended.answers attended.fresh

/-- So is what waits once a sheet is closed, with no answer under way. -/
theorem Attended.close (attended : Attended prompts) (idle : prompts.answers = []) :
    Attended prompts.close := by
  unfold PairingPrompts.close
  split
  · exact attended
  · exact attended_listen attended.shell (.inl idle) nofun

/-- No answer need be under way. -/
theorem Attended.done (attended : Attended prompts) : Attended { prompts with answers := [] } :=
  ⟨attended.shell, attended.waiting, .inl rfl, attended.fresh⟩

/-- An answer is given on the sheet that is open. -/
theorem Attended.tap {accepted : Bool} (attended : Attended prompts) (idle : prompts.answers = [])
    (tapped : prompts.tap accepted = some after) : Attended after := by
  obtain ⟨sheet, opened, rfl⟩ := tap_cases tapped
  have dismissed : Attended (prompts.dismiss sheet.request.deviceId) :=
    attended_listen attended.shell (.inl idle) attended.fresh
  have still : (prompts.dismiss sheet.request.deviceId).sheet = some sheet := by
    unfold dismiss
    rw [listen_sheet (by exact attended.shell), opened, Option.some_or]
  refine ⟨dismissed.shell, dismissed.waiting,
    .inr ⟨⟨sheet.number, sheet.request.deviceId, accepted, none⟩, sheet, ?_, still, rfl, rfl⟩,
    dismissed.fresh⟩
  rw [idle, List.nil_append]

/-- The answer that is under way. -/
theorem Attended.only {place : Nat} {call : PairingAnswer} (attended : Attended prompts)
    (there : prompts.answers[place]? = some call) :
    place = 0 ∧ prompts.answers = [call] ∧ ∃ sheet, prompts.sheet = some sheet ∧
      call.sheet = sheet.number ∧ call.deviceId = sheet.request.deviceId := by
  rcases attended.answers with none | ⟨only, sheet, one, opened⟩
  · rw [none] at there
    cases there
  · rw [one, List.getElem?_singleton] at there
    split at there
    · rename_i first
      obtain rfl := Option.some.inj there
      exact ⟨first, one, sheet, opened⟩
    · cases there

/-- Every move of a patient user, or of another, is attended to. -/
theorem Attended.step {move : PromptMove} (attended : Attended app.prompts) (patient : Patient app move)
    (stepped : app.step uuid deviceId deviceName move = some next) : Attended next.prompts := by
  cases move with
  | pairDevice choice peer name =>
    cases stepped
    exact attended
  | engine call =>
    simp only [PairingApp.step] at stepped
    split at stepped
    · cases stepped
      exact attended
    · cases stepped
  | deliver =>
    simp only [PairingApp.step] at stepped
    split at stepped
    · cases stepped
    · cases stepped
      exact attended.receive _
  | lose =>
    simp only [PairingApp.step] at stepped
    split at stepped
    · cases stepped
    · cases stepped
      exact attended
  | tap accepted =>
    obtain ⟨prompts, tapped, rfl⟩ := Option.map_eq_some_iff.mp stepped
    exact attended.tap patient tapped
  | swipe =>
    obtain ⟨sheet, -, rfl⟩ := Option.map_eq_some_iff.mp stepped
    exact attended.close patient
  | confirm place =>
    obtain ⟨call, there, rfl⟩ := confirm_cases stepped
    obtain ⟨result, same, -⟩ := answer_cases uuid app.pairing call
    obtain ⟨rfl, one, sheet, opened, mine⟩ := attended.only there
    refine ⟨attended.shell, attended.waiting,
      .inr ⟨{ call with result := some result }, sheet, ?_, opened, mine⟩, attended.fresh⟩
    show app.prompts.answers.set 0 _ = _
    rw [one, same]
    rfl
  | complete place =>
    obtain ⟨prompts, completed, rfl⟩ := Option.map_eq_some_iff.mp stepped
    obtain ⟨call, succeeded, there, -, rfl⟩ := complete_cases completed
    obtain ⟨rfl, one, sheet, opened, -⟩ := attended.only there
    rw [one, List.eraseIdx_cons_zero]
    cases succeeded with
    | true =>
      have popped : ({ app.prompts with answers := [] } : PairingPrompts).pop =
          ({ app.prompts with answers := [] } : PairingPrompts).close := by
        simp only [pop, opened]
      rw [if_pos rfl, popped]
      exact attended.done.close rfl
    | false => exact attended.done

/-- As long as the user waits for one answer before giving the next or swiping a sheet away, in every run: the
shell stays, a request that waits has a sheet in front of it, and an answer whose call returns was given on
the sheet that is open. It closes this sheet and opens a new one for the first request of another device; if
the call has failed, the sheet stays. -/
theorem answer_closes_own {moves : List PromptMove}
    (ran : Machine.run (PairingApp.step uuid deviceId deviceName) Patient moves .new = some app) :
    app.prompts.shell = true ∧ (app.prompts.requests ≠ [] → app.prompts.sheet ≠ none) ∧
      ∀ place next, app.step uuid deviceId deviceName (.complete place) = some next →
        ∃ call sheet succeeded, app.prompts.answers = [call] ∧ app.prompts.sheet = some sheet ∧
          call.sheet = sheet.number ∧ call.deviceId = sheet.request.deviceId ∧
          call.result = some succeeded ∧ next.prompts.answers = [] ∧ sheet.number < app.prompts.sheets ∧
          next.prompts.sheet = if succeeded then
              (app.prompts.requests.find? (·.deviceId ≠ sheet.request.deviceId)).map (⟨app.prompts.sheets, ·⟩)
            else some sheet := by
  have new : Attended PairingApp.new.prompts := ⟨rfl, fun _ => rfl, .inl rfl, nofun⟩
  have attended : Attended app.prompts :=
    @Machine.invariant_of_run _ _ _ _ _ (fun _ app => Attended app.prompts) _ _ _ new
      (fun _ _ _ _ attended patient stepped => attended.step patient stepped) ran
  refine ⟨attended.shell, fun waiting closed => waiting (attended.waiting closed),
    fun place next stepped => ?_⟩
  obtain ⟨prompts, completed, rfl⟩ := Option.map_eq_some_iff.mp stepped
  obtain ⟨call, succeeded, there, result, rfl⟩ := complete_cases completed
  obtain ⟨rfl, one, sheet, opened, number, same⟩ := attended.only there
  rw [one, List.eraseIdx_cons_zero]
  refine ⟨call, sheet, succeeded, rfl, opened, number, same, result, ?_, attended.fresh sheet opened, ?_⟩
  · cases succeeded <;> simp
  · cases succeeded with
    | true =>
      simp only [if_true, pop, close, opened, dismiss]
      rw [listen_sheet (by exact attended.shell), Option.none_or, List.head?_filter]
    | false => exact opened

/-- The first sheet is closed, and the second one opened for what waits. -/
theorem answer_closes_own_sample : ∃ app next,
    Machine.run (PairingApp.step .allForms ⟨7⟩ "Desk") Patient sampleMoves .new = some app ∧
      app.step .allForms ⟨7⟩ "Desk" (.complete 0) = some next ∧ app.prompts.shell = true ∧
      ∃ sheet, app.prompts.sheet = some sheet ∧ next.prompts.sheet =
        (app.prompts.requests.find? (·.deviceId ≠ sheet.request.deviceId)).map (⟨app.prompts.sheets, ·⟩) := by
  have runs : (Machine.run (PairingApp.step .allForms ⟨7⟩ "Desk") Patient sampleMoves .new).bind (fun app =>
      (app.step .allForms ⟨7⟩ "Desk" (.complete 0)).map fun _ => app.prompts.answers.map (·.result)) =
        some [some true] := by
    decide +kernel
  obtain ⟨app, ran, completes⟩ := Option.bind_eq_some_iff.mp runs
  obtain ⟨next, stepped, results⟩ := Option.map_eq_some_iff.mp completes
  obtain ⟨shell, -, closes⟩ := answer_closes_own ran
  obtain ⟨call, sheet, succeeded, one, opened, -, -, result, -, -, after⟩ := closes 0 next stepped
  have success : succeeded = true := by
    rw [one, List.map_singleton, result] at results
    exact Option.some.inj (List.cons.inj results).1
  refine ⟨app, next, ran, stepped, shell, sheet, opened, ?_⟩
  rw [after, if_pos success]

/-- A sheet that is swiped away while its answer is under way costs the shell. -/
example : (run .allForms ⟨7⟩ "Desk" [.pairDevice sampleChoice ⟨1⟩ "Phone", .deliver, .tap true, .swipe,
    .confirm 0, .complete 0]).map (·.prompts.shell) = some false := by
  decide +kernel

end FileDrop.Flutter.Consent
