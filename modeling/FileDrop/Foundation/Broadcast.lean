import Mathlib.Data.List.Sort

/-!
# Broadcast channels of bounded capacity

Every receiver of a channel gets what is sent after it was subscribed, in the order it was sent. The
channel keeps the last `capacity` items: a receiver that has fallen further behind is told so once, and
goes on at the oldest item that is kept. What is known of a channel is what was sent so far, and of a
receiver its cursor; a library may keep anything else. What a receiver has got is a sequence of positions
of the channel.
-/
namespace Broadcast

variable {Item : Type}

/-- What was sent, and how many receivers there are. -/
structure Channel (Item : Type) where
  sent : List Item
  receivers : Nat
  deriving DecidableEq

/-- What a receiver is given. -/
inductive Received (Item : Type) where
  | item (item : Item)
  /-- Some items were not kept until the receiver came. -/
  | lagged (missed : Nat)
  /-- There is nothing that the receiver has not seen; it waits. -/
  | empty
  deriving DecidableEq

/-- The item that a receiver is given, if it is given one. -/
def Received.toList : Received Item → List Item
  | .item given => [given]
  | .lagged _ | .empty => []

namespace Channel

/-- A channel with its first receiver. -/
def new : Channel Item := ⟨[], 1⟩

/-- Send an item; without receivers it is handed back. -/
def send (channel : Channel Item) (item : Item) : Except Item (Channel Item) :=
  if channel.receivers = 0 then .error item else .ok { channel with sent := channel.sent ++ [item] }

/-- One more receiver, which begins at the end. -/
def subscribe (channel : Channel Item) : Nat × Channel Item :=
  (channel.sent.length, { channel with receivers := channel.receivers + 1 })

/-- A receiver is dropped. -/
def leave (channel : Channel Item) : Channel Item :=
  { channel with receivers := channel.receivers - 1 }

/-- What the receiver at a cursor is given, and its cursor then. -/
def receive (capacity : Nat) (channel : Channel Item) (cursor : Nat) : Received Item × Nat :=
  if cursor + capacity < channel.sent.length then
    (.lagged (channel.sent.length - capacity - cursor), channel.sent.length - capacity)
  else
    match channel.sent[cursor]? with
    | some item => (.item item, cursor + 1)
    | none => (.empty, cursor)

/-- The cases of a receiver's turn. -/
inductive Receives (capacity : Nat) (channel : Channel Item) (cursor : Nat) :
    Received Item → Nat → Prop where
  | item (item : Item) (near : channel.sent.length ≤ cursor + capacity)
      (there : channel.sent[cursor]? = some item) :
      Receives capacity channel cursor (.item item) (cursor + 1)
  | lagged (missed : Nat) (behind : cursor + capacity < channel.sent.length) :
      Receives capacity channel cursor (.lagged missed) (channel.sent.length - capacity)
  | empty (end_ : channel.sent.length ≤ cursor) : Receives capacity channel cursor .empty cursor

/-- A receiver's turn is one of the cases. -/
theorem receive_cases {capacity cursor next : Nat} {channel : Channel Item} {received : Received Item}
    (turn : channel.receive capacity cursor = (received, next)) :
    Receives capacity channel cursor received next := by
  unfold receive at turn
  split at turn
  · rename_i behind
    cases turn
    exact .lagged _ behind
  · rename_i near
    split at turn
    · rename_i item there
      cases turn
      exact .item item (Nat.le_of_not_lt near) there
    · rename_i none
      cases turn
      exact .empty (List.getElem?_eq_none_iff.mp none)

/-- A receiver never gets past what was sent. -/
theorem Receives.within {capacity cursor next : Nat} {channel : Channel Item} {received : Received Item}
    (turn : Receives capacity channel cursor received next) (within : cursor ≤ channel.sent.length) :
    next ≤ channel.sent.length := by
  cases turn with
  | item item near there => exact (List.getElem?_eq_some_iff.mp there).1
  | lagged missed behind => exact Nat.sub_le _ _
  | empty => exact within

/-- A receiver never goes back. -/
theorem Receives.forward {capacity cursor next : Nat} {channel : Channel Item} {received : Received Item}
    (turn : Receives capacity channel cursor received next) : cursor ≤ next := by
  cases turn with
  | item item near there => exact Nat.le_succ _
  | lagged missed behind => omega
  | empty => exact Nat.le_refl _

end Channel

/-! ## Libraries -/

/-- What is documented of a channel that was made for so many items: it keeps at least as many, and it does
what a channel does, whatever its senders and its receivers are. -/
structure Documented (asked : Nat) (Item : Type) where
  Sender : Type
  Receiver : Type
  new : Sender × Receiver
  send : Sender → Item → Except Item Sender
  subscribe : Sender → Receiver × Sender
  recv : Sender → Receiver → Received Item × Receiver
  leave : Sender → Receiver → Sender
  /-- How many items are kept. -/
  capacity : Nat
  /-- What is known of a sender. -/
  channel : Sender → Channel Item
  /-- What is known of a receiver. -/
  cursor : Receiver → Nat
  enough : asked ≤ capacity
  new_eq : channel new.1 = .new ∧ cursor new.2 = 0
  send_eq : ∀ sender item, (send sender item).map channel = (channel sender).send item
  subscribe_eq : ∀ sender,
    (cursor (subscribe sender).1, channel (subscribe sender).2) = (channel sender).subscribe
  recv_eq : ∀ sender receiver, ((recv sender receiver).1, cursor (recv sender receiver).2) =
    (channel sender).receive capacity (cursor receiver)
  leave_eq : ∀ sender receiver, channel (leave sender receiver) = (channel sender).leave

/-- A library that keeps nothing else, and no more items than it was asked to. -/
def Documented.plain (asked : Nat) : Documented asked Item where
  Sender := Channel Item
  Receiver := Nat
  new := (.new, 0)
  send := Channel.send
  subscribe := Channel.subscribe
  recv := Channel.receive asked
  leave channel _ := channel.leave
  capacity := asked
  channel := id
  cursor := id
  enough := Nat.le_refl asked
  new_eq := ⟨rfl, rfl⟩
  send_eq channel item := by
    show _ = channel.send item
    cases channel.send item with
    | error | ok => rfl
  subscribe_eq _ := rfl
  recv_eq _ _ := rfl
  leave_eq _ _ := rfl

namespace Documented

variable {asked : Nat} {library : Documented asked Item} {sender : library.Sender}
variable {receiver next : library.Receiver}

/-- While there are receivers, an item is sent. -/
theorem send_heard (heard : (library.channel sender).receivers ≠ 0) (item : Item) :
    ∃ after, library.send sender item = .ok after ∧
      library.channel after =
        { library.channel sender with sent := (library.channel sender).sent ++ [item] } := by
  have sent := library.send_eq sender item
  rw [Channel.send, if_neg heard] at sent
  cases done : library.send sender item with
  | error =>
    rw [done] at sent
    cases sent
  | ok after =>
    rw [done] at sent
    exact ⟨after, rfl, Except.ok.inj sent⟩

/-- The turn of a receiver is one of a channel. -/
theorem receives {received : Received Item} (turn : library.recv sender receiver = (received, next)) :
    Channel.Receives library.capacity (library.channel sender) (library.cursor receiver) received
      (library.cursor next) := by
  have known := library.recv_eq sender receiver
  rw [turn] at known
  exact Channel.receive_cases known.symm

/-- A receiver that has fallen behind is told so, and goes on where the channel's items begin. -/
theorem recv_behind (behind : library.cursor receiver + library.capacity < (library.channel sender).sent.length) :
    ∃ missed next, library.recv sender receiver = (.lagged missed, next) ∧
      library.cursor next = (library.channel sender).sent.length - library.capacity := by
  have known := library.recv_eq sender receiver
  rw [Channel.receive, if_pos behind] at known
  obtain ⟨lagged, cursor⟩ := Prod.mk.inj known
  exact ⟨_, _, Prod.ext lagged rfl, cursor⟩

/-- A receiver gets these items in turn. -/
inductive Gets (sender : library.Sender) : library.Receiver → List Item → library.Receiver → Prop where
  | done (receiver : library.Receiver) : Gets sender receiver [] receiver
  | item {receiver middle last : library.Receiver} {item : Item} {rest : List Item}
      (turn : library.recv sender receiver = (.item item, middle)) (later : Gets sender middle rest last) :
      Gets sender receiver (item :: rest) last

/-- One that is not behind gets everything that is left. -/
theorem gets_left (unseen : Nat) (few : unseen ≤ library.capacity)
    (left : (library.channel sender).sent.length = library.cursor receiver + unseen) :
    ∃ last, Gets sender receiver ((library.channel sender).sent.drop (library.cursor receiver)) last ∧
      library.cursor last = (library.channel sender).sent.length := by
  induction unseen generalizing receiver with
  | zero =>
    rw [List.drop_of_length_le (by omega)]
    exact ⟨receiver, .done receiver, left.symm⟩
  | succ unseen ih =>
    have inside : library.cursor receiver < (library.channel sender).sent.length := by omega
    have known := library.recv_eq sender receiver
    rw [Channel.receive, if_neg (by omega), List.getElem?_eq_getElem inside] at known
    obtain ⟨given, cursor⟩ := Prod.mk.inj known
    obtain ⟨last, gets, at_end⟩ := @ih (library.recv sender receiver).2 (by omega) (by omega)
    rw [cursor] at gets
    rw [List.drop_eq_getElem_cons inside]
    exact ⟨last, .item (Prod.ext given rfl) gets, at_end⟩

/-- So a receiver comes to the end: it gets what is left, or it is told that it has fallen behind, and then
gets all that is kept. -/
theorem drains (within : library.cursor receiver ≤ (library.channel sender).sent.length) :
    ∃ last, library.cursor last = (library.channel sender).sent.length ∧
      (((library.channel sender).sent.length ≤ library.cursor receiver + library.capacity ∧
          Gets sender receiver ((library.channel sender).sent.drop (library.cursor receiver)) last) ∨
        (library.cursor receiver + library.capacity < (library.channel sender).sent.length ∧
          ∃ missed middle, library.recv sender receiver = (.lagged missed, middle) ∧
            Gets sender middle ((library.channel sender).sent.drop
              ((library.channel sender).sent.length - library.capacity)) last)) := by
  by_cases behind : library.cursor receiver + library.capacity < (library.channel sender).sent.length
  · obtain ⟨missed, middle, lagged, cursor⟩ := recv_behind behind
    obtain ⟨last, gets, at_end⟩ :=
      @gets_left _ _ library sender middle library.capacity (Nat.le_refl _) (by omega)
    rw [cursor] at gets
    exact ⟨last, at_end, .inr ⟨behind, missed, middle, lagged, gets⟩⟩
  · obtain ⟨last, gets, at_end⟩ := @gets_left _ _ library sender receiver
      ((library.channel sender).sent.length - library.cursor receiver) (by omega) (by omega)
    exact ⟨last, at_end, .inl ⟨Nat.le_of_not_lt behind, gets⟩⟩

end Documented

/-! ## What a receiver has got -/

/-- What a receiver has got of what was sent: it began at `start`, and has come to `cursor`. It got items
in their order, each at most once, and an item it passed without getting it was followed by at least
`capacity` others. -/
def Follows (capacity : Nat) (sent : List Item) (start cursor : Nat) (got : List Item) : Prop :=
  ∃ positions : List Nat, positions.Pairwise (· < ·) ∧
    got.map some = positions.map (sent[·]?) ∧
    (∀ position ∈ positions, start ≤ position ∧ position < cursor) ∧
    ∀ position, start ≤ position → position < cursor → position ∉ positions →
      position + capacity < sent.length

section

variable {capacity start cursor : Nat} {sent got : List Item}

/-- A new receiver has got nothing, and has passed nothing. -/
theorem follows_start : Follows capacity sent start start ([] : List Item) :=
  ⟨[], .nil, rfl, by simp, fun position from_ below => absurd below (Nat.not_lt.mpr from_)⟩

/-- A receiver has got no less when more is sent. -/
theorem Follows.append (follows : Follows capacity sent start cursor got) (within : cursor ≤ sent.length)
    (more : List Item) : Follows capacity (sent ++ more) start cursor got := by
  obtain ⟨positions, ordered, items, range, passed⟩ := follows
  refine ⟨positions, ordered, ?_, range, fun position from_ below missing => ?_⟩
  · rw [items]
    refine List.map_congr_left fun position member => ?_
    have inside : position < sent.length := Nat.lt_of_lt_of_le (range position member).2 within
    rw [List.getElem?_append_left inside]
  · have later := passed position from_ below missing
    rw [List.length_append]
    omega

/-- The next item is got. -/
theorem Follows.item (follows : Follows capacity sent start cursor got) (began : start ≤ cursor)
    {item : Item} (there : sent[cursor]? = some item) :
    Follows capacity sent start (cursor + 1) (got ++ [item]) := by
  obtain ⟨positions, ordered, items, range, passed⟩ := follows
  refine ⟨positions ++ [cursor], ?_, ?_, fun position member => ?_,
    fun position from_ below missing => ?_⟩
  · refine List.pairwise_append.mpr ⟨ordered, List.pairwise_singleton _ _, fun position member last same => ?_⟩
    rw [List.mem_singleton.mp same]
    exact (range position member).2
  · rw [List.map_append, List.map_append, items, List.map_singleton, List.map_singleton, there]
  · rcases List.mem_append.mp member with old | new
    · have inside := range position old
      omega
    · rw [List.mem_singleton.mp new]
      exact ⟨began, Nat.lt_succ_self _⟩
  · rw [List.mem_append, List.mem_singleton, not_or] at missing
    exact passed position from_ (by omega) missing.1

/-- A receiver that has lagged goes on where the channel's items begin. -/
theorem Follows.lagged (follows : Follows capacity sent start cursor got)
    (behind : cursor + capacity < sent.length) :
    Follows capacity sent start (sent.length - capacity) got := by
  obtain ⟨positions, ordered, items, range, passed⟩ := follows
  refine ⟨positions, ordered, items, fun position member => ?_,
    fun position from_ below missing => ?_⟩
  · have inside := range position member
    omega
  · omega

/-- A receiver keeps following through its turns. -/
theorem Follows.receives {channel : Channel Item} {received : Received Item} {next : Nat}
    (follows : Follows capacity channel.sent start cursor got) (began : start ≤ cursor)
    (turn : Channel.Receives capacity channel cursor received next) :
    Follows capacity channel.sent start next (got ++ received.toList) := by
  cases turn with
  | item item near there => exact follows.item began there
  | lagged missed behind =>
    rw [Received.toList, List.append_nil]
    exact follows.lagged behind
  | empty =>
    rw [Received.toList, List.append_nil]
    exact follows

/-- With a smaller bound, more may be missing. -/
theorem Follows.mono (follows : Follows capacity sent start cursor got) {bound : Nat}
    (less : bound ≤ capacity) : Follows bound sent start cursor got := by
  obtain ⟨positions, ordered, items, range, passed⟩ := follows
  refine ⟨positions, ordered, items, range, fun position from_ below missing => ?_⟩
  have later := passed position from_ below missing
  omega

/-- What was sent before a receiver began is nothing to it. -/
theorem Follows.drop (follows : Follows capacity sent start cursor got) (within : start ≤ sent.length) :
    Follows capacity (sent.drop start) 0 (cursor - start) got := by
  obtain ⟨positions, ordered, items, range, passed⟩ := follows
  refine ⟨positions.map (· - start), ?_, ?_, fun position member => ?_,
    fun position _ below missing => ?_⟩
  · refine List.pairwise_map.mpr (ordered.imp_of_mem fun {left right} inLeft inRight less => ?_)
    have low := (range left inLeft).1
    have high := (range right inRight).1
    omega
  · rw [items, List.map_map]
    refine List.map_congr_left fun position member => ?_
    have low := (range position member).1
    show sent[position]? = (sent.drop start)[position - start]?
    rw [List.getElem?_drop, Nat.add_sub_cancel' low]
  · obtain ⟨original, listed, rfl⟩ := List.mem_map.mp member
    have inside := range original listed
    omega
  · have later := passed (position + start) (by omega) (by omega) fun listed =>
      missing (List.mem_map.mpr ⟨position + start, listed, by omega⟩)
    rw [List.length_drop]
    omega

/-- Ascending positions that leave none out from `first` on. -/
theorem positions_split {positions : List Nat} (ordered : positions.Pairwise (· < ·)) {first : Nat}
    (below : ∀ position ∈ positions, position < cursor)
    (all : ∀ position, first ≤ position → position < cursor → position ∈ positions) :
    positions = positions.filter (· < first) ++ List.range' first (cursor - first) := by
  refine ordered.eq_of_mem_iff (List.pairwise_append.mpr
    ⟨ordered.filter _, List.pairwise_lt_range', fun left early right late => ?_⟩) fun position => ?_
  · have small : left < first := by simpa using (List.mem_filter.mp early).2
    have large := (List.mem_range'_1.mp late).1
    omega
  · rw [List.mem_append, List.mem_filter, decide_eq_true_eq, List.mem_range'_1]
    constructor
    · intro member
      have inside := below position member
      by_cases early : position < first
      · exact .inl ⟨member, early⟩
      · exact .inr (by omega)
    · rintro (⟨member, -⟩ | late)
      · exact member
      · exact all position late.1 (by omega)

/-- The items at consecutive positions. -/
theorem items_range' (first : Nat) (within : cursor ≤ sent.length) :
    (List.range' first (cursor - first)).map (sent[·]?) = ((sent.take cursor).drop first).map some := by
  refine List.ext_getElem (by simp; omega) fun index inRange _ => ?_
  have small : index < cursor - first := by simpa using inRange
  simp [List.getElem_range', List.getElem?_eq_getElem (show first + index < sent.length by omega)]

/-- Of the last items that a receiver has passed it has got every one. -/
theorem Follows.recent (follows : Follows capacity sent start cursor got) (within : cursor ≤ sent.length)
    {first : Nat} (began : start ≤ first) (last : sent.length ≤ first + capacity) :
    ∃ older, got = older ++ (sent.take cursor).drop first := by
  obtain ⟨positions, ordered, items, range, passed⟩ := follows
  have all : ∀ position, first ≤ position → position < cursor → position ∈ positions := by
    intro position late below
    by_contra missing
    have early := passed position (by omega) below missing
    omega
  rw [positions_split ordered (fun position member => (range position member).2) all, List.map_append,
    items_range' first within] at items
  obtain ⟨older, newer, rfl, -, same⟩ := List.map_eq_append_iff.mp items
  exact ⟨older, by rw [List.map_inj_right (fun _ _ => Option.some.inj) |>.mp same]⟩

/-- A receiver that never could fall behind has got everything. -/
theorem Follows.whole (follows : Follows capacity sent start cursor got) (within : cursor ≤ sent.length)
    (few : sent.length ≤ start + capacity) : got = (sent.take cursor).drop start := by
  obtain ⟨positions, ordered, items, range, passed⟩ := follows
  have all : ∀ position, start ≤ position → position < cursor → position ∈ positions := by
    intro position late below
    by_contra missing
    have early := passed position late below missing
    omega
  have none : positions.filter (· < start) = [] := by
    refine List.filter_eq_nil_iff.mpr fun position member small => ?_
    have large := (range position member).1
    simp only [decide_eq_true_eq] at small
    omega
  rw [positions_split ordered (fun position member => (range position member).2) all, none, List.nil_append,
    items_range' start within] at items
  exact List.map_inj_right (fun _ _ => Option.some.inj) |>.mp items

end

end Broadcast
