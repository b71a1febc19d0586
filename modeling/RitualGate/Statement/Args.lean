/-!
# Arguments

The named arguments of a statement, in the order of their names. No name occurs twice.
-/

namespace RitualGate

/-- Puts an entry where its name belongs, in place of an entry of that name. -/
def insertEntry (key value : String) : List (String × String) → List (String × String)
  | [] => [(key, value)]
  | (k, v) :: rest =>
    if key < k then (key, value) :: (k, v) :: rest
    else if key = k then (key, value) :: rest
    else (k, v) :: insertEntry key value rest

theorem mem_insertEntry {key value : String} {e : String × String} :
    ∀ {l : List (String × String)}, e ∈ insertEntry key value l → e = (key, value) ∨ e ∈ l
  | [], h => by simpa [insertEntry] using h
  | (k, v) :: rest, h => by
    rw [insertEntry] at h
    split at h
    · simpa using h
    · split at h
      · rcases List.mem_cons.1 h with h | h
        · exact .inl h
        · exact .inr (List.mem_cons_of_mem _ h)
      · rcases List.mem_cons.1 h with h | h
        · exact .inr (h ▸ List.mem_cons_self)
        · rcases mem_insertEntry h with h | h
          · exact .inl h
          · exact .inr (List.mem_cons_of_mem _ h)

theorem pairwise_insertEntry (key value : String) :
    ∀ {l : List (String × String)}, l.Pairwise (fun a b => a.1 < b.1) →
      (insertEntry key value l).Pairwise (fun a b => a.1 < b.1)
  | [], _ => by simp [insertEntry]
  | (k, v) :: rest, h => by
    rw [List.pairwise_cons] at h
    rw [insertEntry]
    split
    · rename_i hlt
      refine List.pairwise_cons.2 ⟨fun e he => ?_, List.pairwise_cons.2 h⟩
      rcases List.mem_cons.1 he with rfl | he
      · exact hlt
      · exact String.lt_trans hlt (h.1 e he)
    · rename_i hnlt
      split
      · rename_i heq
        exact List.pairwise_cons.2 ⟨fun e he => heq ▸ h.1 e he, h.2⟩
      · rename_i hne
        refine List.pairwise_cons.2 ⟨fun e he => ?_, pairwise_insertEntry key value h.2⟩
        rcases mem_insertEntry he with rfl | he
        · exact Std.lt_of_le_of_ne (String.not_lt.1 hnlt) (Ne.symm hne)
        · exact h.1 e he

/-- Named arguments, in the order of their names. -/
structure Args where
  entries : List (String × String)
  sorted : entries.Pairwise (fun a b => a.1 < b.1)
deriving DecidableEq

namespace Args

/-- No arguments. -/
def empty : Args := ⟨[], List.Pairwise.nil⟩

/-- Sets an argument. -/
def insert (args : Args) (key value : String) : Args :=
  ⟨insertEntry key value args.entries, pairwise_insertEntry key value args.sorted⟩

/-- The value of an argument. -/
def get? (args : Args) (key : String) : Option String :=
  args.entries.lookup key

/-- Whether an argument is given. -/
def contains (args : Args) (key : String) : Bool :=
  (args.get? key).isSome

/-- The arguments in a list; of several with one name, the last counts. -/
def ofList (es : List (String × String)) : Args :=
  es.foldl (fun args e => args.insert e.1 e.2) empty

end Args

end RitualGate
