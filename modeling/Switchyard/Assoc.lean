/-!
# Association lists

Finite maps whose entries keep the order in which their keys came first. Keys are compared by `==`,
which may be coarser than equality; then a key also keeps the form in which it came first. Setting a
key that is there changes its value in place (`put`); a lookup after it finds the new value under
that key and the old ones under all others (`get?_put`).

Lists are also looked up by position (`pick?`), which may be counted from either end.
-/

namespace Switchyard

/-- The place, counted from the front, that an index denotes in a list of the given length. An index
below zero counts from the back, down from minus one. -/
def place? (length : Nat) (i : Int) : Option Nat :=
  if 0 ≤ i then if i < length then some i.toNat else none
  else if 0 ≤ i + length then some (i + length).toNat else none

/-- The entry that an index denotes. -/
def pick? {α : Type} (xs : List α) (i : Int) : Option α :=
  (place? xs.length i).bind (xs[·]?)

end Switchyard

namespace Switchyard.Assoc

variable {κ β : Type} [BEq κ]

/-- The value under a key. -/
def get? (k : κ) : List (κ × β) → Option β
  | [] => none
  | (k', v) :: rest => if k' == k then some v else get? k rest

/-- The map with the value under one key set. -/
def put (k : κ) (v : β) : List (κ × β) → List (κ × β)
  | [] => [(k, v)]
  | (k', v') :: rest => if k' == k then (k', v) :: rest else (k', v') :: put k v rest

/-- The map of a list of pairs: a repeated key keeps its first place and takes its last value. -/
def ofPairs (pairs : List (κ × β)) : List (κ × β) :=
  pairs.foldl (fun m (k, v) => put k v m) []

/-- Whether a key is there. -/
def has (k : κ) (m : List (κ × β)) : Bool :=
  (get? k m).isSome

/-- What was put under a key is found under the equal ones, and nothing else has changed. -/
theorem get?_put [EquivBEq κ] (k k' : κ) (v : β) (m : List (κ × β)) :
    get? k (put k' v m) = if k' == k then some v else get? k m := by
  induction m with
  | nil => simp [put, get?]
  | cons entry rest ih =>
    obtain ⟨k'', v''⟩ := entry
    by_cases h : k'' == k'
    · have hk : (k'' == k) = (k' == k) := BEq.congr_left h
      simp only [put, h, if_true, get?, hk]
      by_cases hk' : k' == k <;> simp [hk']
    · by_cases hk : k'' == k
      · have hn : (k' == k) = false := by
          by_cases hk' : k' == k
          · exact absurd (BEq.trans hk (BEq.symm hk')) h
          · simpa using hk'
        simp [put, get?, h, hk, hn]
      · simp [put, get?, h, hk, ih]

/-- Of entries with distinct keys, one key has one entry. -/
theorem eq_of_key_beq {α : Type} [PartialEquivBEq κ] {f : α → κ} {l : List α}
    (h : l.Pairwise (fun a b => (f a == f b) = false)) {a b : α} (ha : a ∈ l) (hb : b ∈ l)
    (hab : f a == f b) : a = b := by
  induction h with
  | nil => cases ha
  | cons hfirst _ ih =>
    cases ha with
    | head =>
      cases hb with
      | head => rfl
      | tail _ hb =>
        rw [hfirst _ hb] at hab
        cases hab
    | tail _ ha =>
      cases hb with
      | head =>
        rw [BEq.comm, hfirst _ ha] at hab
        cases hab
      | tail _ hb => exact ih ha hb

/-- Equal keys find the same. -/
theorem get?_congr [PartialEquivBEq κ] {k k' : κ} (h : k == k') (m : List (κ × β)) :
    get? k m = get? k' m := by
  induction m with
  | nil => rfl
  | cons entry rest ih =>
    obtain ⟨k'', v⟩ := entry
    have hk : (k'' == k) = (k'' == k') := BEq.congr_right h
    rw [get?, get?, hk, ih]

/-- After a put there are the entries there were and the new one, which may have kept an equal key.
-/
theorem mem_of_mem_put [ReflBEq κ] {k : κ} {v : β} {m : List (κ × β)} {entry : κ × β}
    (h : entry ∈ put k v m) : entry ∈ m ∨ (entry.1 == k) = true ∧ entry.2 = v := by
  induction m with
  | nil =>
    rw [put, List.mem_singleton] at h
    subst h
    exact .inr ⟨BEq.rfl, rfl⟩
  | cons first rest ih =>
    obtain ⟨k', v'⟩ := first
    by_cases hk : k' == k
    · simp only [put, hk, if_true, List.mem_cons] at h
      obtain rfl | h := h
      · exact .inr ⟨hk, rfl⟩
      · exact .inl (List.mem_cons_of_mem _ h)
    · simp only [put, hk, Bool.false_eq_true, if_false, List.mem_cons] at h
      obtain rfl | h := h
      · exact .inl List.mem_cons_self
      · exact (ih h).imp_left (List.mem_cons_of_mem _)

/-- The keys of a map are those of the pairs that it was made of. -/
theorem exists_key_of_mem_ofPairs [EquivBEq κ] {pairs : List (κ × β)} {entry : κ × β}
    (h : entry ∈ ofPairs pairs) : ∃ pair ∈ pairs, (entry.1 == pair.1) = true := by
  have hfold : ∀ (pairs m : List (κ × β)), entry ∈ pairs.foldl (fun m (k, v) => put k v m) m →
      entry ∈ m ∨ ∃ pair ∈ pairs, (entry.1 == pair.1) = true := by
    intro pairs
    induction pairs with
    | nil => exact fun m h => .inl h
    | cons pair pairs ih =>
      intro m h
      rcases ih _ h with h | ⟨other, hother, hsame⟩
      · rcases mem_of_mem_put h with h | ⟨hsame, -⟩
        · exact .inl h
        · exact .inr ⟨pair, List.mem_cons_self, hsame⟩
      · exact .inr ⟨other, List.mem_cons_of_mem _ hother, hsame⟩
  exact (hfold pairs [] h).resolve_left List.not_mem_nil

/-- Setting the value under a key adds at most that key, at the end. -/
theorem keys_put (k : κ) (v : β) (m : List (κ × β)) :
    (put k v m).map (·.1) = if (get? k m).isSome then m.map (·.1) else m.map (·.1) ++ [k] := by
  induction m with
  | nil => rfl
  | cons entry rest ih =>
    obtain ⟨k', v'⟩ := entry
    by_cases hk : k' == k
    · simp [put, get?, hk]
    · simp only [put, get?, hk, Bool.false_eq_true, if_false, List.map_cons, ih]
      split <;> rfl

/-- Nothing is found exactly if no entry has an equal key. -/
theorem get?_eq_none_iff {k : κ} {m : List (κ × β)} :
    get? k m = none ↔ ∀ entry ∈ m, (entry.1 == k) = false := by
  induction m with
  | nil => simp [get?]
  | cons entry rest ih =>
    by_cases hk : entry.1 == k
    · simp [get?, hk]
    · simp [get?, hk, ih]

/-- The value under a key in the entries that a list gives. -/
theorem get?_map {α : Type} (key : α → κ) (val : α → β) (k : κ) (l : List α) :
    get? k (l.map (fun a => (key a, val a))) = (l.find? (fun a => key a == k)).map val := by
  induction l with
  | nil => rfl
  | cons a rest ih =>
    by_cases hk : key a == k
    · simp [get?, hk]
    · simp [get?, hk, ih]

/-- A key that the list gives is found, in a form in which it is given. -/
theorem exists_get?_map {α : Type} (key : α → κ) (val : α → β) {k : κ} {l : List α}
    (h : ∃ a ∈ l, (key a == k) = true) :
    ∃ a ∈ l, (key a == k) = true ∧ get? k (l.map (fun a => (key a, val a))) = some (val a) := by
  obtain ⟨a, ha⟩ := Option.isSome_iff_exists.1 (List.find?_isSome.2 h)
  have hk := List.find?_some ha
  refine ⟨a, List.mem_of_find?_eq_some ha, hk, ?_⟩
  rw [get?_map, ha, Option.map_some]

/-- With a lawful equality a key is there exactly if it is among the keys. -/
theorem has_iff [LawfulBEq κ] {k : κ} {m : List (κ × β)} :
    has k m = true ↔ k ∈ m.map (·.1) := by
  rw [has, Option.isSome_iff_ne_none, ne_eq, get?_eq_none_iff]
  simp

/-- A key is not there exactly if no key is equal to it. -/
theorem has_eq_false_iff {k : κ} {m : List (κ × β)} :
    has k m = false ↔ ∀ k' ∈ m.map (·.1), (k' == k) = false := by
  rw [has, Option.isSome_eq_false_iff, Option.isNone_iff_eq_none, get?_eq_none_iff,
    List.forall_mem_map]

/-- A key that was absent is put at the end. -/
theorem put_of_absent {k : κ} {v : β} {m : List (κ × β)}
    (h : ∀ entry ∈ m, (entry.1 == k) = false) : put k v m = m ++ [(k, v)] := by
  induction m with
  | nil => rfl
  | cons entry rest ih =>
    rw [put, h entry List.mem_cons_self,
      ih (fun entry hentry => h entry (List.mem_cons_of_mem _ hentry))]
    rfl

/-- A key that is there keeps its place and its spelling, and only its value changes. -/
theorem put_append {k k' : κ} {u v : β} {m rest : List (κ × β)}
    (h : ∀ entry ∈ m, (entry.1 == k) = false) (hk : k' == k) :
    put k v (m ++ (k', u) :: rest) = m ++ (k', v) :: rest := by
  induction m with
  | nil => simp [put, hk]
  | cons entry m ih =>
    rw [List.cons_append, put, h entry List.mem_cons_self,
      ih (fun entry hentry => h entry (List.mem_cons_of_mem _ hentry))]
    rfl

section
variable {α : Type} {key : α → κ} {l : List α}
  (hd : l.Pairwise (fun a b => (key a == key b) = false))
include hd

/-- Setting new and distinct keys adds them in order. -/
theorem foldl_put_new [ReflBEq κ] (val : α → β) (m : List (κ × β))
    (hm : ∀ a ∈ l, ∀ entry ∈ m, (entry.1 == key a) = false) :
    l.foldl (fun m a => put (key a) (val a) m) m = m ++ l.map (fun a => (key a, val a)) := by
  induction hd generalizing m with
  | nil => simp
  | @cons a l ha _ ih =>
    rw [List.foldl_cons, put_of_absent (hm a List.mem_cons_self), ih, List.append_assoc]
    · rfl
    · intro b hb entry hentry
      obtain hentry | hentry := List.mem_append.1 hentry
      · exact hm b (List.mem_cons_of_mem _ hb) entry hentry
      · rw [List.mem_singleton.1 hentry]
        exact ha b hb

/-- Setting distinct keys that are there in order changes their values. -/
theorem foldl_put_there [ReflBEq κ] (val old : α → β) (m : List (κ × β))
    (hm : ∀ a ∈ l, ∀ entry ∈ m, (entry.1 == key a) = false) :
    l.foldl (fun m a => put (key a) (val a) m) (m ++ l.map (fun a => (key a, old a))) =
      m ++ l.map (fun a => (key a, val a)) := by
  induction hd generalizing m with
  | nil => simp
  | @cons a l ha _ ih =>
    rw [List.foldl_cons, List.map_cons, put_append (hm a List.mem_cons_self) BEq.rfl,
      List.append_cons, ih, List.append_assoc]
    · rfl
    · intro b hb entry hentry
      obtain hentry | hentry := List.mem_append.1 hentry
      · exact hm b (List.mem_cons_of_mem _ hb) entry hentry
      · rw [List.mem_singleton.1 hentry]
        exact ha b hb

end

section
variable {α : Type} [EquivBEq κ] {key : α → κ} {val : α → β} {k : κ} {v : β}

/-- A key that is set, and to one value whenever it is, has that value. -/
theorem get?_foldl_put : ∀ {l : List α} {m : List (κ × β)},
    (∀ a ∈ l, (key a == k) = true → val a = v) →
    (get? k m = some v ∨ ∃ a ∈ l, (key a == k) = true) →
    get? k (l.foldl (fun m a => put (key a) (val a) m) m) = some v
  | [], _, _, h => h.resolve_right (fun ⟨_, ha, _⟩ => nomatch ha)
  | a :: l, m, hval, h => by
    rw [List.foldl_cons]
    refine get?_foldl_put (fun b hb => hval b (List.mem_cons_of_mem _ hb)) ?_
    rw [get?_put]
    by_cases ha : key a == k
    · rw [if_pos ha, hval a List.mem_cons_self ha]
      exact .inl rfl
    · rw [if_neg ha]
      refine h.imp_right (fun ⟨b, hb, hk⟩ => ?_)
      rcases List.mem_cons.1 hb with rfl | hb
      · exact absurd hk ha
      · exact ⟨b, hb, hk⟩

/-- If the pairs of a key agree on its value, and there is such a pair, that value is found. -/
theorem get?_ofPairs_map {l : List α} (hval : ∀ a ∈ l, (key a == k) = true → val a = v)
    (hk : ∃ a ∈ l, (key a == k) = true) :
    get? k (ofPairs (l.map (fun a => (key a, val a)))) = some v := by
  rw [ofPairs, List.foldl_map]
  exact get?_foldl_put hval (.inr hk)

end

/-- Keys that are distinct stay so. -/
theorem pairwise_keys_put {k : κ} {v : β} {m : List (κ × β)}
    (h : (m.map (·.1)).Pairwise (fun a b => (a == b) = false)) :
    ((put k v m).map (·.1)).Pairwise (fun a b => (a == b) = false) := by
  rw [keys_put]
  split
  · exact h
  · next hk =>
    have habsent : ∀ entry ∈ m, (entry.1 == k) = false :=
      get?_eq_none_iff.1 (by simpa using hk)
    refine List.pairwise_append.2 ⟨h, List.pairwise_singleton _ _, fun a ha b hb => ?_⟩
    obtain ⟨entry, hentry, rfl⟩ := List.mem_map.1 ha
    rw [List.mem_singleton.1 hb]
    exact habsent entry hentry

end Switchyard.Assoc
