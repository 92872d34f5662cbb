/-
Networks that share counters, over any run of calls.

A run starts without networks. Documents are read in under names, networks are copied, parts are extracted that go on
with the counter of their network and can be written back, and in between operations change single networks.

- `Sound`: the keys of every network are in order, and every network has a counter by which all its ids count as used.
  Every call keeps this up (`sound_call`), however many networks share a counter.
- `evolves_call`: a call that leaves a name to its network lets that network evolve.
- `inOrder_of_keepsIds`: so after any run keys and ids are in order (`InOrder`), unless ids are written by hand.
-/
import RoadRules.Network.Workspace
import RoadRules.Proofs.Network.Operations

namespace RoadRules

open Network

namespace Workspace

/-! ## Calls -/

/-- a network under a name, with a counter of its own -/
def create (w : Workspace) (name : String) (m : RoadMap) : Workspace :=
  { w.save name m.network w.counters.length with counters := w.counters ++ [m.ids] }

/-- what can be done with the networks of a workspace -/
inductive Call where
  | create (name : String) (d : Document)
  | copy (source name : String)
  | extract (source : String) (scope : Scope) (name : String)
  | perform (name : String) (op : Operation)
  /-- a network written into another one as a copy of the scope; it is gone then -/
  | merge (name : String) (scope : Scope) (source : String)
  | close (name : String)

namespace Call

/-- does the call leave the writing of ids to the counters? -/
def KeepsIds : Call → Prop
  | perform _ op => op.KeepsIds
  | _ => True

/-- does the call take the network of a name away, or put another one in its place? -/
def Renews (name : String) : Call → Prop
  | create other _ => other = name
  | copy _ other => other = name
  | extract _ _ other => other = name
  | perform _ _ => False
  | merge _ _ source => source = name
  | close other => other = name

end Call

/-- a change of one network and its counter, if there is a network of that name -/
def change (w : Workspace) (name : String) (f : RoadMap → RoadMap) : Workspace :=
  match w.map? name with
  | none => w
  | some m => w.update name (f m)

def call (w : Workspace) : Call → Workspace
  | .create name d => w.create name (.ofDocument d)
  | .copy source name => w.copy source name
  | .extract source scope name => w.extract source scope name
  | .perform name op => w.change name (·.perform op)
  | .merge name scope source =>
    match w.entry? source with
    | none => w
    | some e => (w.close source).change name (·.merge scope e.network)
  | .close name => w.close name

/-- the workspace after some calls -/
def run (calls : List Call) : Workspace := calls.foldl call ⟨[], []⟩

/-! ## Looking up -/

variable {w : Workspace} {name other : String}

theorem entry?_close (w : Workspace) (name other : String) :
    entry? (w.close name) other = if other = name then none else w.entry? other := by
  simp only [close, entry?, List.find?_filter]
  split_ifs with h
  · subst h
    simp
  · refine congrArg (List.find? · w.entries) (funext fun e => ?_)
    by_cases he : e.name = other
    · simp [he, h]
    · simp [he]

theorem entry?_save (w : Workspace) (name other : String) (n : Network) (counter : Nat) :
    entry? (w.save name n counter) other = if other = name then some ⟨name, n, counter⟩ else w.entry? other := by
  have hclose := w.entry?_close name other
  simp only [save, entry?, List.find?_cons] at hclose ⊢
  split_ifs at hclose ⊢ with h
  · simp [h]
  · simp only [beq_eq_false_iff_ne.2 (Ne.symm h)]
    exact hclose

theorem entry?_create (w : Workspace) (name other : String) (m : RoadMap) : entry? (w.create name m) other =
    if other = name then some ⟨name, m.network, w.counters.length⟩ else w.entry? other :=
  w.entry?_save name other m.network w.counters.length

theorem mem_entries_of {e : Entry} (he : w.entry? name = some e) : e ∈ w.entries := List.mem_of_find?_eq_some he

theorem map?_eq_some_iff {m : RoadMap} : w.map? name = some m ↔
    ∃ e, w.entry? name = some e ∧ e.network = m.network ∧ w.counters[e.counter]? = some m.ids := by
  obtain ⟨n, ids⟩ := m
  simp only [map?, Option.bind_eq_bind, Option.bind_eq_some_iff, Option.pure_def, Option.some.injEq, RoadMap.mk.injEq]
  constructor
  · rintro ⟨e, he, ids, hids, hn, rfl⟩; exact ⟨e, he, hn, hids⟩
  · rintro ⟨e, he, hn, hids⟩; exact ⟨e, he, ids, hids, hn, rfl⟩

/-- a change of one network leaves the others as they are -/
theorem entry?_update {e : Entry} (he : w.entry? name = some e) (m : RoadMap) (other : String) :
    entry? (w.update name m) other = if other = name then some ⟨name, m.network, e.counter⟩ else w.entry? other := by
  simp only [update, he]
  exact w.entry?_save name other m.network e.counter

/-! ## Soundness -/

/-- every network has its keys in order, and a counter by which its ids count as used -/
structure Sound (w : Workspace) : Prop where
  keyed : ∀ e ∈ w.entries, e.network.Keyed
  counted : ∀ e ∈ w.entries, ∃ ids, w.counters[e.counter]? = some ids ∧ RoadMap.Counted ⟨e.network, ids⟩

namespace Sound

theorem empty : Sound ⟨[], []⟩ := ⟨nofun, nofun⟩

theorem close (h : w.Sound) (name : String) : (w.close name).Sound where
  keyed e he := h.keyed e (List.mem_filter.1 he).1
  counted e he := h.counted e (List.mem_filter.1 he).1

theorem save (h : w.Sound) (name : String) {n : Network} {counter : Nat} {ids : IdAllocator} (hn : n.Keyed)
    (hids : w.counters[counter]? = some ids) (hc : RoadMap.Counted ⟨n, ids⟩) : (w.save name n counter).Sound where
  keyed e he := by
    rcases List.mem_cons.1 he with rfl | he
    · exact hn
    · exact (h.close name).keyed e he
  counted e he := by
    rcases List.mem_cons.1 he with rfl | he
    · exact ⟨ids, hids, hc⟩
    · exact (h.close name).counted e he

/-- counters may go on, and new ones may come behind them -/
theorem counters (h : w.Sound) {counters : List IdAllocator}
    (hc : ∀ (i : Nat) (ids : IdAllocator), w.counters[i]? = some ids →
      ∃ ids' : IdAllocator, counters[i]? = some ids' ∧ ids.watermark ≤ ids'.watermark) :
    Sound { w with counters } where
  keyed := h.keyed
  counted e he := by
    obtain ⟨ids, hids, hcounted⟩ := h.counted e he
    obtain ⟨ids', hids', hle⟩ := hc e.counter ids hids
    exact ⟨ids', hids', fun x id hid => Nat.lt_of_lt_of_le (hcounted x id hid) hle⟩

theorem create (h : w.Sound) (name : String) {m : RoadMap} (hn : m.network.Keyed) (hm : m.Counted) :
    (w.create name m).Sound := by
  have hsound : Sound { w with counters := w.counters ++ [m.ids] } := h.counters fun i ids hids => by
    have hi := (List.getElem?_eq_some_iff.1 hids).1
    exact ⟨ids, by rw [List.getElem?_append_left hi, hids], Nat.le_refl _⟩
  exact hsound.save name hn (by simp) hm

/-- a network of the workspace is in order -/
theorem map? (h : w.Sound) {m : RoadMap} (hm : w.map? name = some m) : m.network.Keyed ∧ m.Counted := by
  obtain ⟨e, he, hn, hids⟩ := map?_eq_some_iff.1 hm
  obtain ⟨ids, hids', hcounted⟩ := h.counted e (mem_entries_of he)
  rw [hids] at hids'
  cases hids'
  exact ⟨hn ▸ h.keyed e (mem_entries_of he), fun x id hid => hcounted x id (hn ▸ hid)⟩

/-- A change of one network leaves the others in order, those with the same counter too: it does not go back. -/
theorem change (h : w.Sound) (name : String) {f : RoadMap → RoadMap}
    (hn : ∀ m : RoadMap, m.network.Keyed → (f m).network.Keyed)
    (hids : ∀ m : RoadMap, m.ids.watermark ≤ (f m).ids.watermark) (hc : ∀ m : RoadMap, m.Counted → (f m).Counted) :
    (w.change name f).Sound := by
  unfold Workspace.change
  cases hm : w.map? name with
  | none => exact h
  | some m =>
    obtain ⟨hkeyed, hcounted⟩ := h.map? hm
    obtain ⟨e, he, -, hcounter⟩ := map?_eq_some_iff.1 hm
    obtain ⟨hi, hat⟩ := List.getElem?_eq_some_iff.1 hcounter
    have hsound : Sound { w with counters := w.counters.set e.counter (f m).ids } := h.counters fun i ids hi' => by
      rw [List.getElem?_set]
      split_ifs with heq
      · subst heq
        cases hcounter.symm.trans hi'
        exact ⟨_, rfl, hids m⟩
      · exact ⟨ids, hi', Nat.le_refl _⟩
    simp only [update, he]
    exact hsound.save name (hn m hkeyed) (by simp [hi]) (hc m hcounted)

end Sound

/-- **A call keeps all networks in order.** -/
theorem sound_call (h : w.Sound) {c : Call} (hc : c.KeepsIds) : (w.call c).Sound := by
  cases c with
  | create name d => exact h.create name (built_ofDocument d).keyed (RoadMap.counted_ofDocument d)
  | copy source name =>
    simp only [call, copy]
    cases hm : w.map? source with
    | none => exact h
    | some m => exact h.create name (h.map? hm).1 (h.map? hm).2
  | extract source scope name =>
    simp only [call, extract]
    cases he : w.entry? source with
    | none => exact h
    | some e =>
      obtain ⟨ids, hids, hcounted⟩ := h.counted e (mem_entries_of he)
      refine h.save name ((h.keyed e (mem_entries_of he)).extract scope) hids fun x id hid => ?_
      exact hcounted x id (idOf?_of_extract hid).2
  | perform name op =>
    exact h.change name (fun m hm => RoadMap.Keyed.perform hm op) (·.watermark_perform op) fun m hm =>
      RoadMap.counted_perform hm hc
  | merge name scope source =>
    simp only [call]
    cases w.entry? source with
    | none => exact h
    | some e =>
      refine (h.close source).change name (fun m hm => RoadMap.Keyed.perform hm (.merge scope e.network))
        (·.watermark_perform (.merge scope e.network)) fun m _ => m.counted_merge scope e.network
  | close name => exact h.close name

/-! ## The network of a name -/

/-- a change of a network, or of another one, lets it evolve -/
theorem evolves_change (h : w.Sound) {e : Entry} (he : w.entry? name = some e) (other : String)
    {f : RoadMap → RoadMap} (hf : ∀ m : RoadMap, m.network.Keyed → m.network.Evolves (f m).network) :
    ∃ e', entry? (w.change other f) name = some e' ∧ e.network.Evolves e'.network := by
  unfold change
  cases hm : w.map? other with
  | none => exact ⟨e, he, .refl _⟩
  | some m =>
    obtain ⟨e₀, he₀, hn, -⟩ := map?_eq_some_iff.1 hm
    rw [entry?_update he₀]
    split_ifs with hname
    · subst hname
      cases he₀.symm.trans he
      exact ⟨_, rfl, hn ▸ hf m (h.map? hm).1⟩
    · exact ⟨e, he, .refl _⟩

/-- **A call that leaves a name to its network lets that network evolve.** -/
theorem evolves_call (h : w.Sound) {e : Entry} (he : w.entry? name = some e) {c : Call} (hc : ¬ c.Renews name) :
    ∃ e', entry? (w.call c) name = some e' ∧ e.network.Evolves e'.network := by
  cases c with
  | create other d => exact ⟨e, by rw [call, entry?_create, if_neg (Ne.symm hc), he], .refl _⟩
  | copy source other =>
    simp only [call, copy]
    cases w.map? source with
    | none => exact ⟨e, he, .refl _⟩
    | some m => exact ⟨e, (w.entry?_create other name m).trans (by rw [if_neg (Ne.symm hc), he]), .refl _⟩
  | extract source scope other =>
    simp only [call, extract]
    cases w.entry? source with
    | none => exact ⟨e, he, .refl _⟩
    | some e' => exact ⟨e, by rw [entry?_save, if_neg (Ne.symm hc), he], .refl _⟩
  | perform other op => exact evolves_change h he other fun m hm => RoadMap.evolves_perform hm op
  | merge other scope source =>
    simp only [call]
    cases w.entry? source with
    | none => exact ⟨e, he, .refl _⟩
    | some e' =>
      have he' : entry? (w.close source) name = some e := by rw [entry?_close, if_neg (Ne.symm hc), he]
      exact evolves_change (h.close source) he' other fun m hm => evolves_merge hm scope e'.network
  | close other => exact ⟨e, by rw [call, entry?_close, if_neg (Ne.symm hc), he], .refl _⟩

/-! ## Runs -/

theorem sound_foldl (calls : List Call) (h : w.Sound) (hc : ∀ c ∈ calls, c.KeepsIds) : (calls.foldl call w).Sound := by
  induction calls generalizing w with
  | nil => exact h
  | cons c calls ih =>
    exact ih (sound_call h (hc c List.mem_cons_self)) fun c hmem => hc c (List.mem_cons_of_mem _ hmem)

theorem evolves_foldl (calls : List Call) (h : w.Sound) (hc : ∀ c ∈ calls, c.KeepsIds)
    (hname : ∀ c ∈ calls, ¬ c.Renews name) {e : Entry} (he : w.entry? name = some e) :
    ∃ e', entry? (calls.foldl call w) name = some e' ∧ e.network.Evolves e'.network := by
  induction calls generalizing w e with
  | nil => exact ⟨e, he, .refl _⟩
  | cons c calls ih =>
    obtain ⟨e₁, he₁, hfirst⟩ := evolves_call h he (hname c List.mem_cons_self)
    obtain ⟨e₂, he₂, hrest⟩ := ih (sound_call h (hc c List.mem_cons_self))
      (fun c hmem => hc c (List.mem_cons_of_mem _ hmem)) (fun c hmem => hname c (List.mem_cons_of_mem _ hmem)) he₁
    exact ⟨e₂, he₂, hfirst.trans hrest⟩

/-- does the network of a name have an element under the key? -/
def Holds (w : Workspace) (name : String) (key : Nat) : Prop :=
  ∃ e, w.entry? name = some e ∧ ∃ x ∈ e.network.allHandles, x.key = key

/-- what is in order with keys and ids after some calls -/
structure InOrder (calls : List Call) : Prop where
  /-- every key is below the next one and occurs once -/
  keyed : ∀ e ∈ (run calls).entries, e.network.Keyed
  /-- the counter of a network is above all its ids -/
  counted : ∀ e ∈ (run calls).entries, ∃ ids, (run calls).counters[e.counter]? = some ids ∧
    ∀ id ∈ e.network.allIds, id.toNat < ids.watermark
  /-- an id that a counter gives is borne in none of the networks that share it -/
  drawn : ∀ (i : Nat) (ids rest : IdAllocator) (id : ElementId), (run calls).counters[i]? = some ids →
    ids.draw? = some (id, rest) → ∀ e ∈ (run calls).entries, e.counter = i → id ∉ e.network.allIds
  /-- a key that a network has lost does not come back -/
  gone : ∀ before between after : List Call, calls = before ++ between ++ after →
    ∀ name, (∀ c ∈ between ++ after, ¬ c.Renews name) →
    ∀ key, (run before).Holds name key → ¬ (run (before ++ between)).Holds name key → ¬ (run calls).Holds name key

/-- **Keys and ids stay in order.** After any calls that leave the writing of ids to the counters, all keys and ids of
all networks are in order. -/
theorem inOrder_of_keepsIds (calls : List Call) (hc : ∀ c ∈ calls, c.KeepsIds) : InOrder calls := by
  have sound : ∀ cs : List Call, (∀ c ∈ cs, c ∈ calls) → (run cs).Sound := fun cs hsub =>
    sound_foldl cs .empty fun c hmem => hc c (hsub c hmem)
  have counted : ∀ e ∈ (run calls).entries, ∃ ids, (run calls).counters[e.counter]? = some ids ∧
      ∀ id ∈ e.network.allIds, id.toNat < ids.watermark := fun e he => by
    obtain ⟨ids, hids, hcounted⟩ := (sound calls fun _ h => h).counted e he
    refine ⟨ids, hids, fun id hid => ?_⟩
    obtain ⟨x, hx⟩ := mem_allIds.1 hid
    exact hcounted x id hx
  refine ⟨(sound calls fun _ h => h).keyed, counted, fun i ids rest id hids hdraw e he hi hmem => ?_, ?_⟩
  · obtain ⟨ids', hids', hbelow⟩ := counted e he
    rw [hi, hids] at hids'
    cases hids'
    exact absurd (IdAllocator.draw?_eq_some_iff.1 hdraw).1 (Nat.ne_of_lt (hbelow id hmem))
  · rintro before between after rfl name hname key ⟨e, he, hheld⟩ hlost ⟨e₂, he₂, x, hx, hkey⟩
    have hsound := sound before fun c h => by simp [h]
    have hsound₁ := sound (before ++ between) fun c h => List.mem_append_left _ h
    obtain ⟨e₁, he₁, hfirst⟩ := evolves_foldl between hsound (fun c h => hc c (by simp [h]))
      (fun c h => hname c (List.mem_append_left _ h)) he
    have hrun₁ : entry? (run (before ++ between)) name = some e₁ := by rw [run, List.foldl_append]; exact he₁
    obtain ⟨e₃, he₃, hsecond⟩ := evolves_foldl after hsound₁ (fun c h => hc c (by simp [h]))
      (fun c h => hname c (List.mem_append_right _ h)) hrun₁
    have hrun₂ : entry? (run (before ++ between ++ after)) name = some e₃ := by
      rw [run, List.foldl_append]; exact he₃
    cases hrun₂.symm.trans he₂
    refine hfirst.gone hsecond (hsound.keyed e (mem_entries_of he)) hheld (fun y hy hk => ?_) x hx hkey
    exact hlost ⟨e₁, hrun₁, y, hy, hk⟩

/-- a part is extracted, loses a lanelet, gains another one and a fresh id, and is written back; the key of the lost
lanelet stays free -/
theorem inOrder_extracted : ∃ calls, calls = [
      .create "main" { lanelets := [{ id := 4 }, { id := 7 }], trafficSigns := [{ id := 7 }] },
      .extract "main" { lanelets := .ofList [0] } "part", .perform "part" (.remove ⟨.lanelet, 0⟩),
      .perform "part" (.add (.lanelet { id := 2 })), .perform "part" (.reassignId ⟨.lanelet, 3⟩),
      .perform "main" .freshId, .merge "main" { lanelets := .ofList [0] } "part"] ∧
    (∀ c ∈ calls, c.KeepsIds) ∧ (run calls).entries.map (·.network.lanelets.keys) = [[1, 3]] ∧
    (run calls).entries.map (·.network.allIds) = [[7, 8, 7]] ∧
    (run calls).counters.map (·.watermark) = [10] ∧ InOrder calls := by
  refine ⟨_, rfl, ?keeps, by decide +kernel, by decide +kernel, by decide +kernel, inOrder_of_keepsIds _ ?keeps⟩
  simp [Call.KeepsIds, Operation.KeepsIds]

end Workspace

end RoadRules
