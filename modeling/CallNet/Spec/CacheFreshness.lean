import CallNet.Engine.LookupCaches

/-!
# Freshness of the lookup caches

The lookups of the engine are read-through lookups before the shared tables, and a listener
drops what its table's changes may have outdated.  Nothing orders a lookup's read and its
storing against the notice in between, so a cache is fresh in every state of a run exactly
when no lookup that a notice has overtaken has the last word with an older value.
-/

namespace CallNet

open Machine (Meets Throughout)

/-- In every schedule of lookups, writes and notifications, the entries are as new as the
    last notice in all states exactly when every lookup is timely. -/
theorem lookup_caches_fresh_iff (db : SharedTables)
    (es : List (ReadThrough.Event CacheKey SharedTables CacheNotice)) :
    Throughout (ReadThrough.step lookupCaches) ReadThrough.Fresh
        (ReadThrough.init lookupCaches db) es ↔
      Meets (ReadThrough.step lookupCaches) ReadThrough.Timely
        (ReadThrough.init lookupCaches db) es :=
  ReadThrough.fresh_throughout_iff db es

/-- Tables without rows. -/
def noRows : SharedTables := ⟨.empty, [], [], []⟩

/-- A connector that sends mail. -/
def mailConnector : ConnectorRecord where
  id := 7
  name := "mail"
  type := "email"
  enabled := true
  config := "{}"

/-- A connector is looked up and read as absent, then created, and its notification comes
    before the lookup stores what it read. -/
def overtakenLookup : List (ReadThrough.Event CacheKey SharedTables CacheNotice) :=
  [.start 0 (.connector 7), .read 0, .commit { noRows with connectors := [mailConnector] },
    .invalidate (.connector 7), .finish 0]

/-- The absence stays cached. -/
theorem not_fresh_overtaken :
    ∃ s, Machine.run (ReadThrough.step lookupCaches) (ReadThrough.init lookupCaches noRows)
        overtakenLookup = some s ∧
      (∀ id, s.lookups id = none) ∧ s.cache (.connector 7) = some none ∧
      s.db.loadConnectorById 7 = some mailConnector ∧ ¬ ReadThrough.Fresh s := by
  obtain ⟨s, hs⟩ : ∃ s, Machine.run (ReadThrough.step lookupCaches)
    (ReadThrough.init lookupCaches noRows) overtakenLookup = some s := ⟨_, rfl⟩
  have hlookups : ∀ id, s.lookups id = none := by
    cases hs
    intro id
    by_cases hid : id = 0
    · subst hid
      rfl
    · simp [ReadThrough.State.setLookup, ReadThrough.init, hid]
  have hcache : s.cache (.connector 7) = some none := by
    cases hs
    rfl
  refine ⟨s, hs, hlookups, hcache, by cases hs; rfl, fun h => ?_⟩
  have hsettled : s.Settled (.connector 7) fun _ => False := by
    intro id l hl
    rw [hlookups id] at hl
    cases hl
  have hsince : s.since (.connector 7) = [some mailConnector] := by
    cases hs
    rfl
  have hmem := h (.connector 7) hsettled none hcache
  rw [hsince] at hmem
  have heq : (none : Option ConnectorRecord) = some mailConnector := List.mem_singleton.mp hmem
  cases heq

end CallNet
