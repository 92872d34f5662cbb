/-
What a counter does for clients that take turns.

Any number of clients hold clones of one counter and come to it in the order of a schedule; each observation and each
draw is one atomic step. The log of a schedule has their calls in the order in which they come to the counter, with the
answer and with the watermark before and after.

- `Event.Lawful`: what is sure about one call. The counter moves past the id that is observed or drawn, and nothing is
  drawn just when it has come to the end of the ids. It does all that in words of 64 bits, without a carry.
- `lawful_event`: every call is lawful.
- `log_spec`: and each starts no lower than all calls before it have ended.
- `inTurn_log`: so under every schedule an id that is drawn is above all that were drawn or observed before.
-/
import RoadRules.Proofs.Network.Clients

namespace RoadRules

namespace IdAllocator

/-! ## Calls -/

inductive Call where
  | observe (id : ElementId)
  | draw
  deriving DecidableEq

/-- the id that the call is answered by, if it asks for one and there is one, and the counter afterwards -/
def serve (a : IdAllocator) : Call → Option ElementId × IdAllocator
  | .observe id => (none, a.observe id)
  | .draw =>
    match a.draw? with
    | some (id, b) => (some id, b)
    | none => (none, a)

/-- the call on a counter that is a word of 64 bits, with sums as such words have them -/
def Call.onWord (next : UInt64) : Call → Option ElementId × UInt64
  | observe id => (none, max next (id.toUInt64 + 1))
  | draw =>
    if next < 4294967296 then (if next.toNat < UInt32.size then some next.toUInt32 else none, next + 1)
    else (none, next)

/-- a call that was made, with the watermark before and after it -/
structure Event where
  client : Nat
  call : Call
  before : Nat
  answer : Option ElementId
  after : Nat
  deriving DecidableEq

/-- the call of a client -/
def event (a : IdAllocator) (client : Nat) (c : Call) : Event :=
  ⟨client, c, a.watermark, (a.serve c).1, (a.serve c).2.watermark⟩

namespace Event

/-- the id that was observed or drawn -/
def seen? (e : Event) : Option ElementId :=
  match e.call with
  | .observe id => some id
  | .draw => e.answer

/-- what is sure about a call -/
structure Lawful (e : Event) : Prop where
  grows : e.before ≤ e.after
  limit : e.after ≤ 2 ^ 32
  passes : ∀ id, e.seen? = some id → id.toNat < e.after
  /-- an id that is drawn is the number that the counter has come to -/
  drawn : ∀ id, e.answer = some id → id.toNat = e.before
  none_iff : e.call = .draw → (e.answer = none ↔ e.before = 2 ^ 32)
  /-- words of 64 bits come to the same -/
  onWord : e.call.onWord (UInt64.ofNat e.before) = (e.answer, UInt64.ofNat e.after)

end Event

section

variable {a : IdAllocator}

theorem serve_draw_of_lt (h : a.watermark < idLimit) :
    a.serve .draw = (some (UInt32.ofNat a.watermark), ⟨a.watermark + 1, h⟩) := by
  simp [serve, draw?, h]

theorem serve_draw_of_end (h : a.watermark = idLimit) : a.serve .draw = (none, a) := by
  rw [serve, draw?_eq_none_iff.2 h]

theorem toNat_word (a : IdAllocator) : (UInt64.ofNat a.watermark).toNat = a.watermark :=
  UInt64.toNat_ofNat_of_lt' (Nat.lt_of_le_of_lt a.watermark_le (by decide))

theorem onWord_observe (a : IdAllocator) (id : ElementId) :
    (Call.observe id).onWord (UInt64.ofNat a.watermark) = (none, UInt64.ofNat (a.observe id).watermark) := by
  have hsum : (id.toUInt64 + 1).toNat = id.toNat + 1 := by
    rw [UInt64.toNat_add, UInt32.toNat_toUInt64]
    exact Nat.mod_eq_of_lt (Nat.lt_trans (Nat.succ_lt_succ id.toNat_lt) (by decide))
  have hword : max (UInt64.ofNat a.watermark) (id.toUInt64 + 1) = UInt64.ofNat (a.observe id).watermark := by
    rw [← UInt64.toNat_inj, UInt64.toNat_max, hsum, toNat_word, toNat_word]
    rfl
  rw [Call.onWord, hword]

theorem onWord_draw (a : IdAllocator) :
    Call.draw.onWord (UInt64.ofNat a.watermark) = ((a.serve .draw).1, UInt64.ofNat (a.serve .draw).2.watermark) := by
  have hword := a.toNat_word
  rcases Nat.lt_or_eq_of_le a.watermark_le with hlt | hend
  · have hbelow : UInt64.ofNat a.watermark < 4294967296 := by
      rw [UInt64.lt_iff_toNat_lt, hword]
      exact hlt
    have hid : (UInt64.ofNat a.watermark).toNat < UInt32.size := hword.symm ▸ hlt
    rw [serve_draw_of_lt hlt, Call.onWord, if_pos hbelow, if_pos hid, UInt64.toUInt32_ofNat', UInt64.ofNat_add]
    rfl
  · have hfull : ¬ UInt64.ofNat a.watermark < 4294967296 := by
      rw [UInt64.lt_iff_toNat_lt, hword, hend]
      decide
    rw [serve_draw_of_end hend, Call.onWord, if_neg hfull]

/-- **A call** moves the counter past the id that is observed or drawn, and no further than the end of the ids. -/
theorem lawful_event (a : IdAllocator) (client : Nat) (c : Call) : (a.event client c).Lawful := by
  cases c with
  | observe id =>
    obtain ⟨hgrows, hpasses⟩ := a.watermark_observe id
    refine ⟨hgrows, (a.observe id).watermark_le, fun seen hseen => ?_, nofun, nofun, a.onWord_observe id⟩
    cases hseen
    exact hpasses
  | draw =>
    have hword := a.onWord_draw
    rcases Nat.lt_or_eq_of_le a.watermark_le with hlt | hend
    · have hserve := serve_draw_of_lt hlt
      have hid : (UInt32.ofNat a.watermark).toNat = a.watermark := UInt32.toNat_ofNat_of_lt hlt
      have hne : a.watermark ≠ 2 ^ 32 := Nat.ne_of_lt hlt
      rw [hserve] at hword
      rw [event, hserve]
      refine ⟨Nat.le_succ _, hlt, fun id hseen => ?_, fun id hanswer => ?_, fun _ => ?_, hword⟩
      · cases hseen
        exact Nat.lt_succ_of_le (Nat.le_of_eq hid)
      · cases hanswer
        exact hid
      · exact iff_of_false nofun hne
    · have hserve := serve_draw_of_end hend
      rw [hserve] at hword
      rw [event, hserve]
      exact ⟨Nat.le_refl _, a.watermark_le, nofun, nofun, fun _ => iff_of_true rfl hend, hword⟩

end

end IdAllocator

/-! ## Logs -/

open IdAllocator

/-- what a client is about to ask of the counter -/
def Client.call? {α : Type} : Client α → Option Call
  | done _ => none
  | observe id _ => some (.observe id)
  | draw _ => some .draw

/-- the client when it has the answer -/
def Client.answered {α : Type} (answer : Option ElementId) : Client α → Client α
  | done a => done a
  | observe _ next => next
  | draw next => next answer

/-- **A step** makes the call that the client is about to make, and the client goes on with the answer. -/
theorem Client.step_eq {α : Type} (c : Client α) (ids : IdAllocator) : c.step ids =
    match c.call? with
    | some call => (c.answered (ids.serve call).1, (ids.serve call).2)
    | none => (c, ids) := by
  cases c with
  | done a => rfl
  | observe id next => rfl
  | draw next =>
    simp only [step, call?, answered, serve]
    cases ids.draw? <;> rfl

namespace Crew

variable {α : Type}

/-- the call of the client whose turn it is, if there is one and it has not come to its end -/
def event? (s : Crew α) (i : Nat) : Option Event := (s.clients[i]?.bind Client.call?).map (s.ids.event i)

/-- the calls of a schedule -/
def log (s : Crew α) : List Nat → List Event
  | [] => []
  | i :: schedule => (s.event? i).toList ++ (s.turn i).log schedule

theorem event?_spec {s : Crew α} {i : Nat} {e : Event} (h : s.event? i = some e) :
    e.Lawful ∧ e.before = s.ids.watermark ∧ e.after = (s.turn i).ids.watermark := by
  obtain ⟨call, hclient, rfl⟩ := Option.map_eq_some_iff.1 h
  obtain ⟨c, hc, hcall⟩ := Option.bind_eq_some_iff.1 hclient
  refine ⟨s.ids.lawful_event i call, rfl, ?_⟩
  simp only [turn, hc, c.step_eq, hcall]
  rfl

theorem ids_turn_of_none {s : Crew α} {i : Nat} (h : s.event? i = none) : (s.turn i).ids = s.ids := by
  have hclient : s.clients[i]?.bind Client.call? = none := Option.map_eq_none_iff.1 h
  unfold turn
  cases hc : s.clients[i]? with
  | none => rfl
  | some c =>
    have hcall : c.call? = none := by rwa [hc] at hclient
    simp only [c.step_eq, hcall]

/-- **Every schedule.** The calls are lawful, and none starts below the counter's first watermark or below where a call
before it has ended. -/
theorem log_spec (s : Crew α) (schedule : List Nat) :
    (∀ e ∈ s.log schedule, e.Lawful ∧ s.ids.watermark ≤ e.before) ∧
      (s.log schedule).Pairwise fun e f => e.after ≤ f.before := by
  induction schedule generalizing s with
  | nil => exact ⟨nofun, .nil⟩
  | cons i schedule ih =>
    obtain ⟨hrest, hpairs⟩ := ih (s.turn i)
    unfold log
    cases he : s.event? i with
    | none =>
      rw [ids_turn_of_none he] at hrest
      exact ⟨hrest, hpairs⟩
    | some e =>
      obtain ⟨hlawful, hbefore, hafter⟩ := event?_spec he
      refine ⟨fun f hf => ?_, List.pairwise_cons.2 ⟨fun f hf => hafter ▸ (hrest f hf).2, hpairs⟩⟩
      rcases List.mem_cons.1 hf with rfl | hf
      · exact ⟨hlawful, Nat.le_of_eq hbefore.symm⟩
      · have hgrows := hlawful.grows
        have hfrom := (hrest f hf).2
        exact ⟨(hrest f hf).1, by omega⟩

/-- the counter moves in these calls only -/
theorem watermark_follow (s : Crew α) (schedule : List Nat) : (s.follow schedule).ids.watermark =
    ((s.log schedule).getLast?.map (·.after)).getD s.ids.watermark := by
  induction schedule generalizing s with
  | nil => rfl
  | cons i schedule ih =>
    change ((s.turn i).follow schedule).ids.watermark = _
    rw [ih, log]
    cases he : s.event? i with
    | none => rw [ids_turn_of_none he]; rfl
    | some e =>
      rw [Option.toList_some, List.singleton_append, List.getLast?_cons, ← (event?_spec he).2.2]
      cases ((s.turn i).log schedule).getLast? <;> rfl

/-- what is sure about the calls that clients make on one counter, in the order in which they come to it -/
structure InTurn (s : Crew α) (schedule : List Nat) : Prop where
  /-- an id that is drawn is greater than all ids observed or drawn before -/
  above : (s.log schedule).Pairwise fun e f =>
    ∀ seen, e.seen? = some seen → ∀ id, f.answer = some id → seen < id
  /-- the watermark never goes back, neither in a call nor from one to a later one -/
  grows : (∀ e ∈ s.log schedule, e.before ≤ e.after) ∧ (s.log schedule).Pairwise fun e f => e.after ≤ f.before
  /-- it never gets beyond the end of the ids -/
  limit : ∀ e ∈ s.log schedule, e.before ≤ 2 ^ 32 ∧ e.after ≤ 2 ^ 32
  /-- nothing is drawn just when it is there -/
  none_iff : ∀ e ∈ s.log schedule, e.call = .draw → (e.answer = none ↔ e.before = 2 ^ 32)
  /-- and then nothing is drawn any more -/
  spent : (s.log schedule).Pairwise fun e f => e.after = 2 ^ 32 → f.after = 2 ^ 32 ∧ f.answer = none
  /-- where the calls end the counter stands -/
  counter : (s.follow schedule).ids.watermark = ((s.log schedule).getLast?.map (·.after)).getD s.ids.watermark
  /-- a counter that is a word of 64 bits does the same -/
  onWord : ∀ e ∈ s.log schedule, e.call.onWord (UInt64.ofNat e.before) = (e.answer, UInt64.ofNat e.after)

/-- **A counter with clones.** For any clients, which may ask for whatever they like and go on as they like with the
answers, and for every order in which their calls come to the counter. -/
theorem inTurn_log (s : Crew α) (schedule : List Nat) : s.InTurn schedule := by
  obtain ⟨hlawful, hpairs⟩ := s.log_spec schedule
  have limit : ∀ e ∈ s.log schedule, e.before ≤ 2 ^ 32 ∧ e.after ≤ 2 ^ 32 := fun e he =>
    ⟨Nat.le_trans (hlawful e he).1.grows (hlawful e he).1.limit, (hlawful e he).1.limit⟩
  refine ⟨?above, ⟨fun e he => (hlawful e he).1.grows, hpairs⟩, limit, fun e he => (hlawful e he).1.none_iff, ?spent,
    s.watermark_follow schedule, fun e he => (hlawful e he).1.onWord⟩
  case above =>
    refine hpairs.imp_of_mem ?_
    intro e f he hf hle seen hseen id hid
    have hpassed := (hlawful e he).1.passes seen hseen
    have hdrawn := (hlawful f hf).1.drawn id hid
    rw [UInt32.lt_iff_toNat_lt]
    omega
  case spent =>
    refine hpairs.imp_of_mem ?_
    intro e f he hf hle hend
    have hgrows := (hlawful f hf).1.grows
    have hbefore : f.before = 2 ^ 32 := Nat.le_antisymm (limit f hf).1 (hend ▸ hle)
    refine ⟨Nat.le_antisymm (limit f hf).2 (by omega), ?_⟩
    cases hanswer : f.answer with
    | none => rfl
    | some id =>
      have hdrawn := (hlawful f hf).1.drawn id hanswer
      have hlt := id.toNat_lt
      omega

/-- two clients draw, and a third one observes the last id but one in between -/
example :
    let drawer : Client Unit := .draw fun _ => .draw fun _ => .done ()
    let s : Crew Unit := ⟨[drawer, .observe 4294967294 (.done ()), drawer], ⟨5, by decide⟩⟩
    (s.log [0, 1, 2, 0, 2]).map (·.answer) = [some 5, none, some 4294967295, none, none] := by
  decide +kernel

end Crew

end RoadRules
