/-!
# Ledgers

A ledger keeps values under keys in the order in which the keys were first entered. Entering a
value under a key that is already there replaces the value and keeps its place; a key that was
erased and is entered again goes to the end.

The operations are defined on plain lists of pairs, and `Ledger` is the type of those lists in
which no key occurs twice.
-/

namespace Colloquy

variable {κ : Type u} {α : Type v}

/-- Keys with their values. -/
abbrev Entries (κ : Type u) (α : Type v) := List (κ × α)

namespace Entries

/-- The keys in order. -/
def keys (entries : Entries κ α) : List κ :=
  entries.map (·.1)

/-- The value under a key. -/
def find? [DecidableEq κ] (entries : Entries κ α) (key : κ) : Option α :=
  (List.find? (·.1 == key) entries).map (·.2)

/-- Enters a value under a key, in the place of the key if it is there and at the end otherwise. -/
def put [DecidableEq κ] : Entries κ α → κ → α → Entries κ α
  | [], key, value => [(key, value)]
  | (k, v) :: entries, key, value =>
    if k = key then (key, value) :: entries else (k, v) :: put entries key value

/-- Removes a key with its value. -/
def erase [DecidableEq κ] (entries : Entries κ α) (key : κ) : Entries κ α :=
  entries.filter (·.1 ≠ key)

/-- The last of the values under a key. -/
def last? [DecidableEq κ] (entries : Entries κ α) (key : κ) : Option α :=
  ((entries.filter (·.1 = key)).map (·.2)).getLast?

theorem keys_put [DecidableEq κ] (entries : Entries κ α) (key : κ) (value : α) :
    keys (put entries key value) =
      if key ∈ keys entries then keys entries else keys entries ++ [key] := by
  induction entries with
  | nil => simp [put, keys]
  | cons entry entries ih =>
    obtain ⟨k, v⟩ := entry
    by_cases h : k = key
    · subst h
      simp [put, keys]
    · have h' : ¬ key = k := fun e => h e.symm
      simp only [keys] at ih
      simp only [put, if_neg h, keys, List.map_cons, ih, List.mem_cons, h', false_or]
      split <;> simp [*]

/-- A new key goes to the end. -/
theorem put_of_not_mem [DecidableEq κ] {entries : Entries κ α} {key : κ} (h : key ∉ keys entries)
    (value : α) : put entries key value = entries ++ [(key, value)] := by
  induction entries with
  | nil => rfl
  | cons entry entries ih =>
    rw [keys, List.map_cons, List.mem_cons, not_or] at h
    rw [put, if_neg fun heq => h.1 heq.symm, ih h.2]
    rfl

theorem find?_put_self [DecidableEq κ] (entries : Entries κ α) (key : κ) (value : α) :
    find? (put entries key value) key = some value := by
  unfold find?
  induction entries with
  | nil => simp [put]
  | cons entry entries ih =>
    obtain ⟨k, v⟩ := entry
    by_cases h : k = key
    · simp [put, h]
    · simpa [put, h] using ih

theorem find?_put_of_ne [DecidableEq κ] (entries : Entries κ α) {key other : κ} (h : other ≠ key)
    (value : α) : find? (put entries key value) other = find? entries other := by
  unfold find?
  induction entries with
  | nil => simp [put, h.symm]
  | cons entry entries ih =>
    obtain ⟨k, v⟩ := entry
    by_cases hk : k = key
    · simp [put, hk, h.symm]
    · by_cases hother : k = other
      · subst hother
        simp [put, hk]
      · simpa [put, hk, hother] using ih

theorem find?_erase_self [DecidableEq κ] (entries : Entries κ α) (key : κ) :
    find? (erase entries key) key = none := by
  simp [find?, erase]

theorem find?_erase_of_ne [DecidableEq κ] (entries : Entries κ α) {key other : κ}
    (h : other ≠ key) :
    find? (erase entries key) other = find? entries other := by
  unfold find? erase
  rw [List.find?_filter]
  congr 2
  funext entry
  by_cases heq : entry.1 = other <;> simp [heq, h]

theorem mem_of_find? [DecidableEq κ] {entries : Entries κ α} {key : κ} {value : α}
    (h : find? entries key = some value) : (key, value) ∈ entries := by
  obtain ⟨entry, hfind, rfl⟩ := Option.map_eq_some_iff.1 h
  have hkey : entry.1 = key := by simpa using List.find?_some hfind
  exact hkey ▸ List.mem_of_find?_eq_some hfind

theorem mem_keys_of_find? [DecidableEq κ] {entries : Entries κ α} {key : κ} {value : α}
    (h : find? entries key = some value) : key ∈ keys entries :=
  List.mem_map.2 ⟨(key, value), mem_of_find? h, rfl⟩

theorem exists_find? [DecidableEq κ] {entries : Entries κ α} {key : κ} (h : key ∈ keys entries) :
    ∃ value, find? entries key = some value := by
  obtain ⟨entry, hentry, hkey⟩ := List.mem_map.1 h
  have hfound : (List.find? (·.1 == key) entries).isSome = true := by
    rw [List.find?_isSome]
    exact ⟨entry, hentry, beq_iff_eq.2 hkey⟩
  obtain ⟨found, hfind⟩ := Option.isSome_iff_exists.1 hfound
  exact ⟨found.2, by rw [find?, hfind]; rfl⟩

theorem last?_cons_self [DecidableEq κ] (key : κ) (value : α) (entries : Entries κ α) :
    last? ((key, value) :: entries) key = (last? entries key).or (some value) := by
  unfold last?
  rw [List.filter_cons_of_pos (by simp), List.map_cons, List.getLast?_cons]
  cases (List.map (·.2) (List.filter (·.1 = key) entries)).getLast? <;> rfl

theorem last?_cons_of_ne [DecidableEq κ] {key other : κ} (h : key ≠ other) (value : α)
    (entries : Entries κ α) : last? ((key, value) :: entries) other = last? entries other := by
  unfold last?
  rw [List.filter_cons_of_neg (by simpa using h)]

theorem find?_cons_self [DecidableEq κ] (key : κ) (value : α) (entries : Entries κ α) :
    find? ((key, value) :: entries) key = some value := by
  simp [find?]

theorem find?_cons_of_ne [DecidableEq κ] {key other : κ} (h : key ≠ other) (value : α)
    (entries : Entries κ α) : find? ((key, value) :: entries) other = find? entries other := by
  simp [find?, h]

/-- If no key occurs twice, every value is found under its key. -/
theorem find?_of_mem [DecidableEq κ] {entries : Entries κ α}
    (hnodup : (keys entries).Nodup) {key : κ} {value : α} (h : (key, value) ∈ entries) :
    find? entries key = some value := by
  induction entries with
  | nil => cases h
  | cons entry entries ih =>
    obtain ⟨k, v⟩ := entry
    obtain ⟨hnew, hnodup⟩ := List.nodup_cons.1 hnodup
    rcases List.mem_cons.1 h with heq | hmem
    · cases heq
      exact find?_cons_self ..
    · have hne : k ≠ key := by
        rintro rfl
        exact hnew (List.mem_map.2 ⟨_, hmem, rfl⟩)
      rw [find?_cons_of_ne hne]
      exact ih hnodup hmem

/-- Entries are known from their keys and from the values under these. -/
theorem eq_of_keys_eq [DecidableEq κ] {entries others : Entries κ α} (hnodup : (keys entries).Nodup)
    (hkeys : keys entries = keys others)
    (hvalues : ∀ key ∈ keys entries, find? entries key = find? others key) : entries = others := by
  induction entries generalizing others with
  | nil => exact (List.map_eq_nil_iff.1 hkeys.symm).symm
  | cons entry entries ih =>
    obtain ⟨key, value⟩ := entry
    cases others with
    | nil => cases hkeys
    | cons other others =>
      obtain ⟨key', value'⟩ := other
      obtain ⟨rfl, htail⟩ := List.cons.inj hkeys
      obtain ⟨hnew, hnodup⟩ := List.nodup_cons.1 hnodup
      have hhead := hvalues key (List.mem_cons_self ..)
      rw [find?_cons_self, find?_cons_self] at hhead
      obtain rfl : value = value' := Option.some.inj hhead
      refine congrArg _ (ih hnodup htail fun k hk => ?_)
      have hne : key ≠ k := by
        rintro rfl
        exact hnew hk
      have hfind := hvalues k (List.mem_cons_of_mem _ hk)
      rwa [find?_cons_of_ne hne, find?_cons_of_ne hne] at hfind

theorem nodup_keys_put [DecidableEq κ] {entries : Entries κ α} (h : (keys entries).Nodup)
    (key : κ) (value : α) :
    (keys (put entries key value)).Nodup := by
  rw [keys_put]
  split
  · exact h
  · next hkey =>
    rw [List.nodup_append]
    refine ⟨h, by simp, fun a ha b hb => ?_⟩
    simp only [List.mem_singleton] at hb
    rintro rfl
    exact hkey (hb ▸ ha)

theorem nodup_keys_erase [DecidableEq κ] {entries : Entries κ α}
    (h : (keys entries).Nodup) (key : κ) :
    (keys (erase entries key)).Nodup :=
  List.Nodup.sublist ((List.filter_sublist (l := entries)).map _) h

end Entries

/-- Values under keys, in the order in which the keys were entered. -/
structure Ledger (κ : Type u) (α : Type v) where
  entries : Entries κ α
  /-- No key occurs twice. -/
  nodup : entries.keys.Nodup

namespace Ledger

/-- The ledger without entries. -/
def empty : Ledger κ α :=
  ⟨[], List.nodup_nil⟩

instance : EmptyCollection (Ledger κ α) := ⟨empty⟩

instance : Inhabited (Ledger κ α) := ⟨empty⟩

@[ext] theorem ext {l m : Ledger κ α} (h : l.entries = m.entries) : l = m := by
  cases l
  cases m
  cases h
  rfl

/-- The keys in order. -/
def keys (ledger : Ledger κ α) : List κ :=
  ledger.entries.keys

/-- The number of keys. -/
def size (ledger : Ledger κ α) : Nat :=
  ledger.entries.length

/-- The value under a key. -/
def get? [DecidableEq κ] (ledger : Ledger κ α) (key : κ) : Option α :=
  ledger.entries.find? key

/-- Whether there is a value under a key. -/
def contains [DecidableEq κ] (ledger : Ledger κ α) (key : κ) : Bool :=
  (ledger.get? key).isSome

/-- Enters a value under a key. -/
def insert [DecidableEq κ] (ledger : Ledger κ α) (key : κ) (value : α) : Ledger κ α :=
  ⟨ledger.entries.put key value, Entries.nodup_keys_put ledger.nodup key value⟩

/-- Removes a key with its value. -/
def erase [DecidableEq κ] (ledger : Ledger κ α) (key : κ) : Ledger κ α :=
  ⟨ledger.entries.erase key, Entries.nodup_keys_erase ledger.nodup key⟩

/-- Enters values one after another. -/
def enter [DecidableEq κ] (ledger : Ledger κ α) : Entries κ α → Ledger κ α
  | [] => ledger
  | (key, value) :: entries => enter (ledger.insert key value) entries

theorem get?_insert_self [DecidableEq κ] (ledger : Ledger κ α) (key : κ) (value : α) :
    (ledger.insert key value).get? key = some value :=
  Entries.find?_put_self ledger.entries key value

theorem get?_insert_of_ne [DecidableEq κ] (ledger : Ledger κ α) {key other : κ} (h : other ≠ key)
    (value : α) : (ledger.insert key value).get? other = ledger.get? other :=
  Entries.find?_put_of_ne ledger.entries h value

theorem contains_insert [DecidableEq κ] (ledger : Ledger κ α) (key other : κ) (value : α) :
    (ledger.insert key value).contains other = (other == key || ledger.contains other) := by
  by_cases h : other = key
  · subst h
    simp [contains, get?_insert_self]
  · simp [contains, get?_insert_of_ne _ h, h]

theorem keys_insert [DecidableEq κ] (ledger : Ledger κ α) (key : κ) (value : α) :
    (ledger.insert key value).keys =
      if key ∈ ledger.keys then ledger.keys else ledger.keys ++ [key] :=
  Entries.keys_put ledger.entries key value

theorem mem_keys_iff [DecidableEq κ] {ledger : Ledger κ α} {key : κ} :
    key ∈ ledger.keys ↔ ∃ value, ledger.get? key = some value :=
  ⟨Entries.exists_find?, fun ⟨_, h⟩ => Entries.mem_keys_of_find? h⟩

theorem mem_entries_iff [DecidableEq κ] {ledger : Ledger κ α} {key : κ} {value : α} :
    (key, value) ∈ ledger.entries ↔ ledger.get? key = some value :=
  ⟨Entries.find?_of_mem ledger.nodup, Entries.mem_of_find?⟩

/-- Ledgers with the same keys in the same order and the same values are the same. -/
theorem eq_of_keys_eq [DecidableEq κ] {ledger other : Ledger κ α} (hkeys : ledger.keys = other.keys)
    (hvalues : ∀ key ∈ ledger.keys, ledger.get? key = other.get? key) : ledger = other :=
  ext (Entries.eq_of_keys_eq ledger.nodup hkeys hvalues)

/-- Values that are entered under new keys follow those that are there. -/
theorem entries_enter [DecidableEq κ] {ledger : Ledger κ α} {entries : Entries κ α}
    (hnodup : (ledger.keys ++ Entries.keys entries).Nodup) :
    (ledger.enter entries).entries = ledger.entries ++ entries := by
  induction entries generalizing ledger with
  | nil => exact (List.append_nil _).symm
  | cons entry entries ih =>
    obtain ⟨key, value⟩ := entry
    have hnew : key ∉ Entries.keys ledger.entries := by
      intro hmem
      exact (List.nodup_append.1 hnodup).2.2 key hmem key (List.mem_cons_self ..) rfl
    have hentries : (ledger.insert key value).entries = ledger.entries ++ [(key, value)] :=
      Entries.put_of_not_mem hnew value
    have hkeys : (ledger.insert key value).keys = ledger.keys ++ [key] :=
      (ledger.keys_insert key value).trans (if_neg hnew)
    rw [enter, ih (by rw [hkeys, List.append_assoc]; exact hnodup), hentries, List.append_assoc]
    rfl

/-- A ledger is what comes of entering its values into an empty one. -/
theorem enter_entries [DecidableEq κ] (ledger : Ledger κ α) : empty.enter ledger.entries = ledger :=
  ext (entries_enter ledger.nodup)

theorem enter_append [DecidableEq κ] (ledger : Ledger κ α) (first second : Entries κ α) :
    ledger.enter (first ++ second) = (ledger.enter first).enter second := by
  induction first generalizing ledger with
  | nil => rfl
  | cons entry first ih => exact ih _

theorem get?_enter_of_not_mem [DecidableEq κ] (ledger : Ledger κ α)
    {entries : Entries κ α} {key : κ} (h : key ∉ Entries.keys entries) :
    (ledger.enter entries).get? key = ledger.get? key := by
  induction entries generalizing ledger with
  | nil => rfl
  | cons entry entries ih =>
    rw [Entries.keys, List.map_cons, List.mem_cons, not_or] at h
    rw [enter, ih _ h.2, get?_insert_of_ne _ h.1]

/-- After entering, a key has the last value that was entered under it, or else the one it had
before. -/
theorem get?_enter [DecidableEq κ] (ledger : Ledger κ α) (entries : Entries κ α) (key : κ) :
    (ledger.enter entries).get? key = (entries.last? key).or (ledger.get? key) := by
  induction entries generalizing ledger with
  | nil => rfl
  | cons entry entries ih =>
    obtain ⟨k, value⟩ := entry
    rw [enter, ih]
    by_cases h : k = key
    · subst h
      rw [get?_insert_self, Entries.last?_cons_self, Option.or_assoc, Option.some_or]
    · rw [get?_insert_of_ne _ (Ne.symm h), Entries.last?_cons_of_ne h]

theorem mem_keys_enter [DecidableEq κ] {ledger : Ledger κ α} {entries : Entries κ α} {key : κ} :
    key ∈ (ledger.enter entries).keys ↔ key ∈ ledger.keys ∨ key ∈ Entries.keys entries := by
  induction entries generalizing ledger with
  | nil => simp [enter, Entries.keys]
  | cons entry entries ih =>
    have hkeys :
        key ∈ (ledger.insert entry.1 entry.2).keys ↔ key ∈ ledger.keys ∨ key = entry.1 := by
      rw [keys_insert]
      split <;> simp_all
    show key ∈ ((ledger.insert entry.1 entry.2).enter entries).keys ↔
      key ∈ ledger.keys ∨ key ∈ entry.1 :: Entries.keys entries
    rw [ih, hkeys, List.mem_cons, or_assoc]

/-- The keys after entering depend on the keys alone. -/
theorem keys_enter_congr [DecidableEq κ] {ledger other : Ledger κ α} {entries others : Entries κ α}
    (h : ledger.keys = other.keys) (hentries : Entries.keys entries = Entries.keys others) :
    (ledger.enter entries).keys = (other.enter others).keys := by
  induction entries generalizing ledger other others with
  | nil =>
    obtain rfl := List.map_eq_nil_iff.1 hentries.symm
    exact h
  | cons entry entries ih =>
    cases others with
    | nil => cases hentries
    | cons otherEntry others =>
      obtain ⟨hkey, hentries⟩ := List.cons.inj hentries
      replace hkey : entry.1 = otherEntry.1 := hkey
      show ((ledger.insert entry.1 entry.2).enter entries).keys =
        ((other.insert otherEntry.1 otherEntry.2).enter others).keys
      refine ih ?_ hentries
      rw [keys_insert, keys_insert, h, hkey]

/-- What holds of all values that are there and of all that are entered holds of all values then. -/
theorem forall_enter [DecidableEq κ] {P : κ → α → Prop} {ledger : Ledger κ α}
    {entries : Entries κ α} (hledger : ∀ key value, ledger.get? key = some value → P key value)
    (hentries : ∀ entry ∈ entries, P entry.1 entry.2) {key : κ} {value : α}
    (h : (ledger.enter entries).get? key = some value) : P key value := by
  induction entries generalizing ledger with
  | nil => exact hledger key value h
  | cons entry entries ih =>
    refine ih (fun k v hget => ?_)
      (fun other hother => hentries other (List.mem_cons_of_mem _ hother)) h
    by_cases hkey : k = entry.1
    · subst hkey
      rw [get?_insert_self] at hget
      cases hget
      exact hentries entry (List.mem_cons_self ..)
    · rw [get?_insert_of_ne _ hkey] at hget
      exact hledger k v hget

theorem get?_erase_self [DecidableEq κ] (ledger : Ledger κ α) (key : κ) :
    (ledger.erase key).get? key = none :=
  Entries.find?_erase_self ledger.entries key

theorem get?_erase_of_ne [DecidableEq κ] (ledger : Ledger κ α) {key other : κ} (h : other ≠ key) :
    (ledger.erase key).get? other = ledger.get? other :=
  Entries.find?_erase_of_ne ledger.entries h

end Ledger

end Colloquy
