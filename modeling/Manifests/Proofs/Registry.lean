import Manifests.Composition
import Mathlib.Data.List.Nodup

/-! # Registering

A record is registered after the others if none of its kind stands under its key. A look-up that finds nothing says
that of every registered record, and one that finds a record says that no other stands there. -/

namespace Manifests.Registry

theorem lookup?_eq_none_iff {r : Registry} {kind : Kind} {key : String} :
    r.lookup? kind key = none ↔ ∀ entry ∈ r.entries, entry.2.kind = kind → entry.1 ≠ key := by
  simp [lookup?, stands]

theorem named?_eq_none_iff {r : Registry} {kind : Kind} {name : String} :
    r.named? kind name = none ↔ ∀ entry ∈ r.entries, entry.2.kind = kind → entry.2.name ≠ name := by
  simp [named?]

/-- No two entries have the kind and the key in common. -/
theorem entry_unique (r : Registry) {a b : String × Record} (ha : a ∈ r.entries) (hb : b ∈ r.entries)
    (hkind : a.2.kind = b.2.kind) (hkey : a.1 = b.1) : a = b := by
  have hnodup : (r.entries.map fun entry => (entry.2.kind, entry.1)).Nodup := List.pairwise_map.mpr r.distinct
  exact List.inj_on_of_nodup_map hnodup ha hb (by rw [hkind, hkey])

theorem lookup?_eq_some_iff {r : Registry} {kind : Kind} {key : String} {record : Record} :
    r.lookup? kind key = some record ↔ (key, record) ∈ r.entries ∧ record.kind = kind := by
  constructor
  · intro h
    obtain ⟨⟨key', record'⟩, hfind, rfl⟩ := Option.map_eq_some_iff.mp h
    obtain ⟨hkind, rfl⟩ : record'.kind = kind ∧ key' = key := by simpa [stands] using List.find?_some hfind
    exact ⟨List.mem_of_find?_eq_some hfind, hkind⟩
  · rintro ⟨hmem, rfl⟩
    -- What is found has the kind and the key of the record, as no other entry has.
    cases hfind : r.entries.find? (stands record.kind key) with
    | none =>
      exact absurd hmem fun hmem => by simpa [stands] using List.find?_eq_none.mp hfind _ hmem
    | some entry =>
      obtain ⟨hkind, hkey⟩ : entry.2.kind = record.kind ∧ entry.1 = key := by
        simpa [stands] using List.find?_some hfind
      obtain rfl : entry = (key, record) :=
        r.entry_unique (List.mem_of_find?_eq_some hfind) hmem hkind hkey
      rw [lookup?, hfind]
      rfl

theorem named?_eq_some {r : Registry} {kind : Kind} {name : String} {record : Record}
    (h : r.named? kind name = some record) :
    ∃ key, (key, record) ∈ r.entries ∧ record.kind = kind ∧ record.name = name := by
  obtain ⟨⟨key, record'⟩, hfind, rfl⟩ := Option.map_eq_some_iff.mp h
  obtain ⟨hkind, hname⟩ : record'.kind = kind ∧ record'.name = name := by simpa using List.find?_some hfind
  exact ⟨key, List.mem_of_find?_eq_some hfind, hkind, hname⟩

theorem register_entries {r : Registry} {key : String} {record : Record} (h : r.lookup? record.kind key = none) :
    (r.register key record).entries = r.entries ++ [(key, record)] := by
  have hkept : r.entries.filter (fun entry => !stands record.kind key entry) = r.entries := by
    rw [List.filter_eq_self]
    intro entry hentry
    rw [Bool.not_eq_true', Bool.eq_false_iff]
    intro hstands
    obtain ⟨hkind, hkey⟩ : entry.2.kind = record.kind ∧ entry.1 = key := by simpa [stands] using hstands
    exact lookup?_eq_none_iff.mp h entry hentry hkind hkey
  show r.entries.filter (fun entry => !stands record.kind key entry) ++ [(key, record)] = _
  rw [hkept]

/-- A record that is registered in place of no other is found under its kind and key, and the others as before. -/
theorem lookup?_register {r : Registry} {key : String} {record : Record} (h : r.lookup? record.kind key = none)
    (kind : Kind) (key' : String) :
    (r.register key record).lookup? kind key' =
      if kind = record.kind ∧ key' = key then some record else r.lookup? kind key' := by
  rw [lookup?, register_entries h, List.find?_append]
  by_cases heq : kind = record.kind ∧ key' = key
  · obtain ⟨rfl, rfl⟩ := heq
    rw [Option.map_eq_none_iff.mp h]
    simp [stands]
  · have hother : ¬(record.kind = kind ∧ key = key') := fun h => heq ⟨h.1.symm, h.2.symm⟩
    simp [heq, hother, stands, lookup?]

theorem named?_register {r : Registry} {key : String} {record : Record} (h : r.lookup? record.kind key = none)
    (hname : r.named? record.kind record.name = none) (kind : Kind) (name : String) :
    (r.register key record).named? kind name =
      if kind = record.kind ∧ name = record.name then some record else r.named? kind name := by
  rw [named?, register_entries h, List.find?_append]
  by_cases heq : kind = record.kind ∧ name = record.name
  · obtain ⟨rfl, rfl⟩ := heq
    rw [Option.map_eq_none_iff.mp hname]
    simp
  · have hother : ¬(record.kind = kind ∧ record.name = name) := fun h => heq ⟨h.1.symm, h.2.symm⟩
    simp [heq, hother, named?]

end Manifests.Registry
