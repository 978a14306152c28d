import Mathlib.Data.List.Nodup
import Reporting.Cache

/-!
# The entries of a cache

What finding, storing and erasing do to the entries of a cache. A look-up has one of three outcomes
(`Cache.get_cases`), and as long as no key stands twice and the capacity is kept, storing evicts the
first entry where a new key meets a full cache and nothing otherwise (`Cache.entries_put`).
-/

namespace Reporting.Cache

variable {τ : Type} {key : String} {cache : Cache τ}

theorem mem_keys :
    key ∈ cache.keys ↔ ∃ entry ∈ cache.entries, entry.key = key := List.mem_map

/-- Erasing a key takes the entries of that key and no others. -/
theorem mem_erase {entry : CacheEntry τ} :
    entry ∈ (cache.erase key).entries ↔ entry ∈ cache.entries ∧ entry.key ≠ key := by
  simp [erase]

theorem keys_erase : (cache.erase key).keys = cache.keys.filter (· != key) := by
  simp [erase, keys, List.filter_map, Function.comp_def]

/-- A key that was erased is gone. -/
theorem not_mem_keys_erase : key ∉ (cache.erase key).keys := by
  simp [keys_erase]

/-- Erasing a key that is not there changes nothing. -/
theorem erase_of_not_mem (missing : key ∉ cache.keys) :
    (cache.erase key).entries = cache.entries := by
  rw [erase, List.filter_eq_self]
  intro entry member
  rw [bne_iff_ne]
  intro same
  exact missing (mem_keys.mpr ⟨entry, member, same⟩)

/-- Erasing a key that is there makes room. -/
theorem size_erase_lt (member : key ∈ cache.keys) : (cache.erase key).size < cache.size := by
  obtain ⟨entry, inside, same⟩ := mem_keys.mp member
  apply List.length_filter_lt_length_iff_exists.mpr
  exact ⟨entry, inside, by simp [same]⟩

/-- Erasing never makes a cache larger. -/
theorem size_erase_le : (cache.erase key).size ≤ cache.size := List.length_filter_le _ _

/-- A key under which nothing is found is not kept. -/
theorem find?_eq_none (none : cache.find? key = none) : key ∉ cache.keys := by
  intro member
  obtain ⟨entry, inside, same⟩ := mem_keys.mp member
  exact List.find?_eq_none.mp none entry inside (beq_iff_eq.mpr same)

/-- What is found under a key is an entry of that key. -/
theorem mem_of_find? {entry : CacheEntry τ} (found : cache.find? key = some entry) :
    entry ∈ cache.entries ∧ entry.key = key := by
  have holds := List.find?_some found
  exact ⟨List.mem_of_find?_eq_some found, beq_iff_eq.mp holds⟩

variable {limits : CacheLimits τ}

/-- A full cache with room for anything at all has a first entry. -/
theorem exists_cons_of_full (room : 1 ≤ limits.capacity) (full : cache.size = limits.capacity) :
    ∃ first rest, cache.entries = first :: rest := by
  apply List.exists_cons_of_ne_nil
  rw [← List.length_pos_iff]
  exact Nat.lt_of_lt_of_le room (Nat.le_of_eq full.symm)

/-- There is room for a key that is not new or does not find the cache full. -/
theorem size_erase_lt_capacity (bounded : cache.size ≤ limits.capacity)
    (spare : ¬ (key ∉ cache.keys ∧ cache.size = limits.capacity)) :
    (cache.erase key).size < limits.capacity := by
  by_cases member : key ∈ cache.keys
  · exact Nat.lt_of_lt_of_le (size_erase_lt member) bounded
  · have below : cache.size ≠ limits.capacity := fun same => spare ⟨member, same⟩
    exact Nat.lt_of_le_of_lt size_erase_le (Nat.lt_of_le_of_ne bounded below)

/-- What storing leaves of the entries, behind which it puts the new one. -/
theorem entries_put (room : 1 ≤ limits.capacity) (bounded : cache.size ≤ limits.capacity)
    (now : τ) (key : String) (value : Value) :
    (cache.put limits now key value).2.entries =
      (if key ∉ cache.keys ∧ cache.size = limits.capacity then cache.entries.tail
        else (cache.erase key).entries) ++ [⟨key, value, now⟩] := by
  change List.drop (((cache.erase key).entries ++ [CacheEntry.mk key value now]).length -
    limits.capacity) ((cache.erase key).entries ++ [CacheEntry.mk key value now]) = _
  rw [List.length_append, List.length_singleton]
  by_cases full : key ∉ cache.keys ∧ cache.size = limits.capacity
  · have size : cache.entries.length = limits.capacity := full.2
    have one : cache.entries.length + 1 - limits.capacity = 1 := by omega
    obtain ⟨first, rest, entries⟩ := exists_cons_of_full room full.2
    rw [if_pos full, erase_of_not_mem full.1, one, entries]
    rfl
  · have none : (cache.erase key).entries.length + 1 - limits.capacity = 0 := by
      have below : (cache.erase key).entries.length < limits.capacity :=
        size_erase_lt_capacity bounded full
      omega
    rw [if_neg full, none, List.drop_zero]

/-- A look-up finds nothing, or drops a stale entry, or moves a fresh one to the end. -/
theorem get_cases [Clock τ] (limits : CacheLimits τ) (now : τ) (key : String) (cache : Cache τ) :
    (key ∉ cache.keys ∧ cache.get limits now key = (none, cache)) ∨
      ∃ entry ∈ cache.entries, entry.key = key ∧
        ((limits.timeToLive < now - entry.storedAt ∧
            cache.get limits now key = (none, cache.erase key)) ∨
          (¬ limits.timeToLive < now - entry.storedAt ∧ cache.get limits now key =
            (some entry.value, ⟨(cache.erase key).entries ++ [entry]⟩))) := by
  unfold get
  cases found : cache.find? key with
  | none => exact Or.inl ⟨find?_eq_none found, rfl⟩
  | some entry =>
      obtain ⟨member, same⟩ := mem_of_find? found
      refine Or.inr ⟨entry, member, same, ?_⟩
      by_cases stale : limits.timeToLive < now - entry.storedAt
      · exact Or.inl ⟨stale, by simp [isStale, stale]⟩
      · exact Or.inr ⟨stale, by simp [isStale, stale]⟩

end Reporting.Cache
