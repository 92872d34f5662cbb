/-
Several users of one counter for ids.

A client is a computation that comes to a counter with ids to observe, and to draw ids. Each of these is one atomic
step; between two steps of a client others may have come to the same counter.

- `Client.run`: what a client comes to that has the counter for itself.
- `Crew.follow`: clients that take turns, in the order of a schedule.
- `Client.Quiet`: the client never moves the counter. All clients are quiet when the counter has come to its end
  (`quiet_of_end`).
- `Client.Calm`: the client never draws, and observes only ids that the counter has gone beyond. So it is quiet.
- `Crew.outcome_of_quiet`: clients that are quiet come to what each of them comes to on its own, whatever the order of
  their steps.
-/
import Mathlib.Tactic
import RoadRules.Proofs.Network.FreshIds

namespace RoadRules

/-! ## Clients -/

/-- a computation that uses a counter; a draw is answered by an id, unless all are used up -/
inductive Client (α : Type) where
  | done (result : α)
  | observe (id : ElementId) (next : Client α)
  | draw (next : Option ElementId → Client α)

namespace Client

variable {α β : Type}

def bind (c : Client α) (f : α → Client β) : Client β :=
  match c with
  | done a => f a
  | observe id next => observe id (next.bind f)
  | draw next => draw fun answer => (next answer).bind f

instance : Monad Client where
  pure := done
  bind := bind

/-- tells the counter of ids, one after the other -/
def observeAll : List ElementId → Client Unit
  | [] => done ()
  | id :: rest => observe id (observeAll rest)

/-- one step, and the counter afterwards -/
def step (ids : IdAllocator) : Client α → Client α × IdAllocator
  | done a => (done a, ids)
  | observe id next => (next, ids.observe id)
  | draw next =>
    match ids.draw? with
    | some (id, ids) => (next (some id), ids)
    | none => (next none, ids)

/-- all steps, with no other client about -/
def run : Client α → IdAllocator → α × IdAllocator
  | done a, ids => (a, ids)
  | observe id next, ids => next.run (ids.observe id)
  | draw next, ids =>
    match ids.draw? with
    | some (id, ids) => (next (some id)).run ids
    | none => (next none).run ids

/-- is it about to draw? -/
def asks : Client α → Bool
  | draw _ => true
  | done _ | observe _ _ => false

/-- a step is the first one of the run -/
theorem run_step (c : Client α) (ids : IdAllocator) : (c.step ids).1.run (c.step ids).2 = c.run ids := by
  cases c with
  | done a => rfl
  | observe id next => rfl
  | draw next =>
    simp only [step, run]
    cases ids.draw? <;> rfl

@[simp] theorem run_pure (a : α) (ids : IdAllocator) : (pure a : Client α).run ids = (a, ids) := rfl

@[simp] theorem run_bind (c : Client α) (f : α → Client β) (ids : IdAllocator) :
    (c >>= f).run ids = (f (c.run ids).1).run (c.run ids).2 := by
  change (c.bind f).run ids = _
  induction c generalizing ids with
  | done a => rfl
  | observe id next ih => exact ih _
  | draw next ih =>
    simp only [bind, run]
    cases ids.draw? with
    | none => exact ih none ids
    | some d => exact ih (some d.1) d.2

theorem run_observeAll (new : List ElementId) (ids : IdAllocator) :
    (observeAll new).run ids = ((), ids.observeAll new) := by
  induction new generalizing ids with
  | nil => rfl
  | cons id new ih => exact ih _

end Client

/-! ## Where the counter stays -/

namespace IdAllocator

theorem ext_watermark {a b : IdAllocator} (h : a.watermark = b.watermark) : a = b := by
  obtain ⟨w, hw⟩ := a
  cases h
  rfl

theorem observe_eq_self {a : IdAllocator} {id : ElementId} (h : id.toNat < a.watermark) : a.observe id = a :=
  ext_watermark (Nat.max_eq_left h)

end IdAllocator

namespace Client

variable {α β : Type} {ids : IdAllocator}

/-! ## Quiet clients -/

/-- does it leave the counter where it is, at each of its steps? -/
def Quiet (ids : IdAllocator) : Client α → Prop
  | done _ => True
  | observe id next => ids.observe id = ids ∧ next.Quiet ids
  | draw next => ids.draw? = none ∧ (next none).Quiet ids

/-- once the ids are used up, every client is quiet -/
theorem quiet_of_end (h : ids.watermark = idLimit) (c : Client α) : c.Quiet ids := by
  induction c with
  | done a => trivial
  | observe id next ih => exact ⟨IdAllocator.observe_eq_self (h ▸ id.toNat_lt_size), ih⟩
  | draw next ih => exact ⟨IdAllocator.draw?_eq_none_iff.2 h, ih none⟩

namespace Quiet

variable {c : Client α} (h : c.Quiet ids)

include h

theorem run : (c.run ids).2 = ids := by
  induction c with
  | done a => rfl
  | observe id next ih =>
    rw [Client.run, h.1]
    exact ih h.2
  | draw next ih =>
    simp only [Client.run, h.1]
    exact ih none h.2

theorem step : (c.step ids).2 = ids ∧ (c.step ids).1.Quiet ids := by
  cases c with
  | done a => exact ⟨rfl, trivial⟩
  | observe id next => exact h
  | draw next =>
    simp only [Client.step, h.1]
    exact ⟨trivial, h.2⟩

/-- if it draws, nothing is there to be drawn -/
theorem draw?_of_asks (hasks : c.asks = true) : ids.draw? = none := by
  cases c with
  | done a => cases hasks
  | observe id next => cases hasks
  | draw next => exact h.1

end Quiet

/-! ## Calm clients -/

/-- never draws, observes only ids that the counter has gone beyond, and comes to a result with a property -/
def Calm (ids : IdAllocator) (Q : α → Prop) : Client α → Prop
  | done a => Q a
  | observe id next => id.toNat < ids.watermark ∧ next.Calm ids Q
  | draw _ => False

namespace Calm

variable {Q : α → Prop} {R : β → Prop} {c : Client α} (h : c.Calm ids Q)

include h

theorem bind {f : α → Client β} (hf : ∀ a, Q a → (f a).Calm ids R) : (c >>= f).Calm ids R := by
  change (c.bind f).Calm ids R
  induction c with
  | done a => exact hf a h
  | observe id next ih => exact ⟨h.1, ih h.2⟩
  | draw next => exact h.elim

theorem quiet : c.Quiet ids := by
  induction c with
  | done a => trivial
  | observe id next ih => exact ⟨IdAllocator.observe_eq_self h.1, ih h.2⟩
  | draw next => exact h.elim

theorem step : (c.step ids).1.Calm ids Q := by
  cases c with
  | done a => exact h
  | observe id next => exact h.2
  | draw next => exact h.elim

theorem not_asks : c.asks = false := by
  cases c with
  | done a => rfl
  | observe id next => rfl
  | draw next => exact h.elim

/-- its result is that of its run, whatever else is known of it -/
theorem result {R : α → Prop} (hr : R (c.run ids).1) : c.Calm ids R := by
  induction c with
  | done a => exact hr
  | observe id next ih =>
    rw [run, IdAllocator.observe_eq_self h.1] at hr
    exact ⟨h.1, ih h.2 hr⟩
  | draw next => exact h.elim

end Calm

theorem calm_observeAll {new : List ElementId} (h : ∀ id ∈ new, id.toNat < ids.watermark) :
    (observeAll new).Calm ids fun _ => True := by
  induction new with
  | nil => trivial
  | cons id new ih => exact ⟨h id List.mem_cons_self, ih fun i hi => h i (List.mem_cons_of_mem _ hi)⟩

/-- clients that come one after the other, each going on from what the last one has come to -/
theorem calm_foldlM {f : β → α → Client β} {R : β → Prop} {as : List α} (hf : ∀ b, R b → ∀ a ∈ as, (f b a).Calm ids R)
    {b : β} (hb : R b) : (as.foldlM f b).Calm ids R := by
  induction as generalizing b with
  | nil => exact hb
  | cons a as ih =>
    rw [List.foldlM_cons]
    exact (hf b hb a List.mem_cons_self).bind fun b' hb' =>
      ih (fun b hb a ha => hf b hb a (List.mem_cons_of_mem _ ha)) hb'

/-- clients that come one after the other without others in between do what the results do -/
theorem run_foldlM {γ : Type} {f : β → α → Client β} {g : γ → α → γ} (view : γ → β × IdAllocator)
    (hf : ∀ s a, (f (view s).1 a).run (view s).2 = view (g s a)) (as : List α) (s : γ) :
    (as.foldlM f (view s).1).run (view s).2 = view (as.foldl g s) := by
  induction as generalizing s with
  | nil => rfl
  | cons a as ih => rw [List.foldlM_cons, run_bind, hf, List.foldl_cons, ih]

end Client

/-! ## Crews -/

/-- clients of one counter -/
structure Crew (α : Type) where
  clients : List (Client α)
  ids : IdAllocator

namespace Crew

variable {α : Type}

/-- a step of the client at a position; there may be none -/
def turn (s : Crew α) (i : Nat) : Crew α :=
  match s.clients[i]? with
  | some c => ⟨s.clients.set i (c.step s.ids).1, (c.step s.ids).2⟩
  | none => s

/-- the steps of a schedule, which says for each step whose it is -/
def follow (s : Crew α) (schedule : List Nat) : Crew α := schedule.foldl turn s

/-- the clients one after the other, each from its beginning to its end -/
def runAll : List (Client α) → IdAllocator → List α × IdAllocator
  | [], ids => ([], ids)
  | c :: rest, ids =>
    let (a, ids) := c.run ids
    let (as, ids) := runAll rest ids
    (a :: as, ids)

/-- the results of all clients, and the counter in the end: first they follow the schedule, and those that have not come
to their end by then do so one after the other -/
def outcome (s : Crew α) (schedule : List Nat) : List α × IdAllocator :=
  runAll (s.follow schedule).clients (s.follow schedule).ids

/-- what holds of all clients and is kept by their steps holds as long as the counter stays -/
theorem follow_induction {P : Client α → Prop} {s : Crew α}
    (hstep : ∀ c, P c → (c.step s.ids).2 = s.ids ∧ P (c.step s.ids).1) (hs : ∀ c ∈ s.clients, P c)
    (schedule : List Nat) :
    (s.follow schedule).ids = s.ids ∧ ∀ c ∈ (s.follow schedule).clients, P c := by
  induction schedule using List.reverseRecOn with
  | nil => exact ⟨rfl, hs⟩
  | append_singleton schedule i ih =>
    obtain ⟨hids, hclients⟩ := ih
    have hlast : s.follow (schedule ++ [i]) = (s.follow schedule).turn i := List.foldl_concat ..
    rw [hlast, turn]
    split
    · next c hc =>
      obtain ⟨hstays, hnext⟩ := hstep c (hclients c (List.mem_of_getElem? hc))
      rw [hids]
      refine ⟨hstays, fun c' hc' => ?_⟩
      rcases List.mem_or_eq_of_mem_set hc' with hc' | rfl
      · exact hclients c' hc'
      · exact hnext
    · exact ⟨hids, hclients⟩

section Quiet

variable {s : Crew α} (hs : ∀ c ∈ s.clients, c.Quiet s.ids)

include hs

/-- **Quiet clients** leave the counter where it is, and are quiet under every schedule. -/
theorem follow_of_quiet (schedule : List Nat) :
    (s.follow schedule).ids = s.ids ∧ ∀ c ∈ (s.follow schedule).clients, c.Quiet s.ids :=
  follow_induction (fun _ h => h.step) hs schedule

/-- they go on to the same results -/
theorem results_follow (schedule : List Nat) : (s.follow schedule).clients.map (fun c => (c.run s.ids).1) =
    s.clients.map fun c => (c.run s.ids).1 := by
  induction schedule using List.reverseRecOn with
  | nil => rfl
  | append_singleton schedule i ih =>
    obtain ⟨hids, hquiet⟩ := follow_of_quiet hs schedule
    have hlast : s.follow (schedule ++ [i]) = (s.follow schedule).turn i := List.foldl_concat ..
    rw [hlast, ← ih, turn]
    split
    · next c hc =>
      obtain ⟨hstays, -⟩ := (hquiet c (List.mem_of_getElem? hc)).step
      have hrun := c.run_step s.ids
      rw [hstays] at hrun
      obtain ⟨hi, rfl⟩ := List.getElem?_eq_some_iff.1 hc
      dsimp only
      rw [hids, List.map_set, hrun]
      refine List.ext_getElem (List.length_set ..) fun j _ _ => ?_
      rw [List.getElem_set]
      split_ifs with hj
      · subst hj
        rw [List.getElem_map]
      · rfl
    · rfl

end Quiet

/-- quiet clients that come one after the other -/
theorem runAll_of_quiet {cs : List (Client α)} {ids : IdAllocator} (h : ∀ c ∈ cs, c.Quiet ids) :
    runAll cs ids = (cs.map fun c => (c.run ids).1, ids) := by
  induction cs with
  | nil => rfl
  | cons c cs ih =>
    simp only [runAll, (h c List.mem_cons_self).run, ih fun c hc => h c (List.mem_cons_of_mem _ hc), List.map_cons]

/-- **The order does not show.** Quiet clients come to what each of them comes to on its own. -/
theorem outcome_of_quiet {s : Crew α} (hs : ∀ c ∈ s.clients, c.Quiet s.ids) (schedule : List Nat) :
    s.outcome schedule = (s.clients.map fun c => (c.run s.ids).1, s.ids) := by
  obtain ⟨hids, hquiet⟩ := follow_of_quiet hs schedule
  rw [outcome, hids, runAll_of_quiet hquiet, results_follow hs]

end Crew

end RoadRules
