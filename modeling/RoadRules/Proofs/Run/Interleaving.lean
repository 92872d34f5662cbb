/-
Blocks at the same time.

When the network is cut, no ids are shared against a rule of the plan. So no block needs a fresh id, and the ids that it
observes are ids that the counter has gone beyond: the counter stays where it is, and each block comes to the same
result whatever the others do in between.

- `calm_blockCrew`: where no ids are shared, no block draws.
- `quiet_blockCrew`: in any case no block moves the counter.
- `order_free`: so the order in which the blocks come to the counter does not show.

If there were more elements than ids, some may be left shared when the counter has come to its end. Then a block may ask
for a fresh id. But the counter has none to give, and the unused id that the block takes depends on the block alone.
-/
import RoadRules.Proofs.Run.BlockClients
import RoadRules.Proofs.Run.CutIds
import RoadRules.Proofs.Run.Untouched

namespace RoadRules.Plan

/-- what is sure about blocks that come to the counter in the order of a schedule. Each observation and each draw is a
step, so that a schedule says how the steps of the blocks are interleaved. -/
structure OrderFree (p : Plan) (d : Document) (schedule : List Nat) : Prop where
  /-- network, keys, counter and result are those of a run that takes one block after the other -/
  outcome : p.runPartitionedBy schedule (.ofDocument d) = p.runPartitioned (.ofDocument d)
  /-- after the steps of the schedule the counter is where it was when the network was cut -/
  counter : ((p.blockCrew (.ofDocument d)).follow schedule).ids = (p.acrossBlocks (.ofDocument d)).map.ids
  /-- a block that draws next is not given an id -/
  undrawn : ∀ b ∈ ((p.blockCrew (.ofDocument d)).follow schedule).clients, b.asks = true →
    ((p.blockCrew (.ofDocument d)).follow schedule).ids.draw? = none
  /-- and no block draws next, unless there are more elements than ids -/
  unasked : d.elements.length ≤ idLimit →
    ∀ b ∈ ((p.blockCrew (.ofDocument d)).follow schedule).clients, b.asks = false

section Blocks

variable {p : Plan} (hp : p.catalog = standardCatalog) {m : RoadMap}

include hp

/-- **Blocks without shared ids** do not draw, and observe only ids that the counter has gone beyond. -/
theorem calm_blockCrew (hm : (p.acrossBlocks m).map.Counted) (hn : p.Unshared (p.cutNetwork m)) :
    ∀ b ∈ (p.blockCrew m).clients, b.Calm (p.blockCrew m).ids fun _ => True := by
  intro b hb
  obtain ⟨s, -, rfl⟩ := List.mem_map.1 hb
  have hids : ∀ x id, ((p.cutNetwork m).extract s).idOf? x = some id → id.toNat < (p.blockCrew m).ids.watermark :=
    fun x id hid => hm x id (Network.idOf?_of_extract hid).2
  exact (calm_runWhole hp hids (hn.extract s)).result trivial

/-- **The counter** is not moved by blocks. -/
theorem quiet_blockCrew (hlimit : 0 < p.config.maxIterations) {bound : Nat} (hm : m.Within bound) :
    ∀ b ∈ (p.blockCrew m).clients, b.Quiet (p.blockCrew m).ids := by
  obtain ⟨hwithin, ⟨hend, -⟩ | hn⟩ := unshared_acrossBlocks hp hlimit hm
  · exact fun b _ => Client.quiet_of_end hend b
  · exact fun b hb => (calm_blockCrew hp hwithin.counted hn b hb).quiet

end Blocks

/-- **The order of the blocks does not show.** For all settings that can be used, the network of every document and
every schedule: a run whose blocks come to the counter in that order has the network, the counter and the result of a
run that takes one block after the other, and no block draws an id or moves the counter. -/
theorem order_free {c : Catalog} (hc : Catalog.standard = .ok c) (config : Config)
    (hiterations : 1 ≤ config.maxIterations) (hradius : 1 ≤ config.radius) (hblock : 1 ≤ config.blockSize) :
    ∃ p, Plan.ofConfig config c = .ok p ∧ ∀ d schedule, p.OrderFree d schedule := by
  obtain rfl : c = standardCatalog := Except.ok.inj (hc.symm.trans Catalog.standard_eq)
  obtain ⟨p, hp⟩ := exists_plan config hiterations hradius hblock
  have hstd := (catalog_of_standard hc hp).2
  have hlimit := maxIterations_pos hp
  refine ⟨p, hp, fun d schedule => ?_⟩
  have hwithin := RoadMap.within_ofDocument d
  have hquiet := quiet_blockCrew hstd hlimit hwithin
  obtain ⟨hids, hlater⟩ := Crew.follow_of_quiet hquiet schedule
  refine ⟨runPartitionedBy_of_quiet hquiet schedule, hids, fun b hb hasks => ?_, fun hfew b hb => ?_⟩
  · rw [hids]
    exact (hlater b hb).draw?_of_asks hasks
  · obtain ⟨hcut, ⟨-, hmany⟩ | hn⟩ := unshared_acrossBlocks hstd hlimit hwithin
    · omega
    · have hcalm := calm_blockCrew hstd hcut.counted hn
      obtain ⟨-, hstill⟩ := Crew.follow_induction (fun b h => ⟨h.quiet.step.1, h.step⟩) hcalm schedule
      exact (hstill b hb).not_asks

/-- two lanelets share an id, and another one has a successor that does not exist; when the twins are apart, there are
blocks of one lanelet each -/
theorem order_free_twins : ∃ p,
    Plan.ofConfig { rules := [.uniqueIdLa, .existenceSuccessor], blockSize := 1 } standardCatalog = .ok p ∧
    ∃ d : Document, d = { lanelets := [{ id := 1, successors := .ofList [3, 7] }, { id := 3 }, { id := 3 }] } ∧
      (p.blockCrew (.ofDocument d)).clients.length = 3 ∧
      ((p.runPartitionedBy [1, 0, 2, 1, 0] (.ofDocument d)).map.network.lanelets.values.map fun l =>
        (l.id, l.successors.toList)) = [(1, [3]), (3, []), (4, [])] ∧
      p.OrderFree d [1, 0, 2, 1, 0] := by
  obtain ⟨p, hp, hfree⟩ := order_free Catalog.standard_eq
    { rules := [.uniqueIdLa, .existenceSuccessor], blockSize := 1 } (by decide) (by decide) (by decide)
  obtain rfl : p = ⟨{ rules := [.uniqueIdLa, .existenceSuccessor], blockSize := 1 }, standardCatalog,
    [.uniqueIdLa, .existenceSuccessor]⟩ := Except.ok.inj (hp.symm.trans rfl)
  refine ⟨_, hp, _, rfl, ?blocks, ?network, hfree _ _⟩
  case blocks => decide +kernel
  case network => decide +kernel

end RoadRules.Plan
