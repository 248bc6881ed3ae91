import FlowLint.Json.Reader
import FlowLint.Proofs.Json.Sorted
import FlowLint.Proofs.Json.Tokens

/-!
# Written values are read back

A value is legible if each of its numbers is read back from its text and if it has no more levels
than may be open. From the text of a legible value the same value is read, members in their order
and repeated keys included. Whole numbers of 64 bits are read back; whether a floating-point number
is depends on its two roundings and is left as a condition.
-/

namespace FlowLint.Json

variable {limit levels : Nat} {stack : List Frame} {ts : List Token} {v : Json}

theorem readTokens_cons {stack' : List Frame} {expected expected' : Expectation} {t : Token}
    (h : readToken limit stack expected t = some (stack', expected')) :
    readTokens limit stack expected (t :: ts) = readTokens limit stack' expected' ts := by
  rw [readTokens, h]

/-- Whether the tokens of a value are put together to the value, wherever one is expected and its
levels may open. -/
def Reads (limit levels : Nat) (v : Json) : Prop :=
  ∀ stack mayClose ts, stack.length + levels ≤ limit →
    readTokens limit stack (.value mayClose) (tokensOf v ++ ts) =
      readTokens limit stack (.after v) ts

/-- Items after the first. -/
theorem readTokens_items {items : List Json} (h : ∀ v ∈ items, Reads limit levels v)
    (hlimit : stack.length + (levels + 1) ≤ limit) (done : List Json) (v : Json) :
    readTokens limit (.array done :: stack) (.after v) (itemTokens false items ++ ts) =
      readTokens limit stack (.after (.arr (done.reverse ++ v :: items))) ts := by
  induction items generalizing done v with
  | nil =>
    rw [itemTokens, List.singleton_append, readTokens_cons rfl, List.reverse_cons]
  | cons w rest ih =>
    obtain ⟨hw, hrest⟩ := List.forall_mem_cons.mp h
    have hopen : (Frame.array (v :: done) :: stack).length + levels ≤ limit := by
      rw [List.length_cons]
      omega
    have htokens : itemTokens false (w :: rest) ++ ts =
        .comma :: (tokensOf w ++ (itemTokens false rest ++ ts)) := by
      simp [itemTokens]
    have hdone : (v :: done).reverse ++ w :: rest = done.reverse ++ v :: w :: rest := by simp
    rw [htokens, readTokens_cons rfl, hw _ _ _ hopen, ih hrest, hdone]

/-- Members after the first. -/
theorem readTokens_members {members : List (String × Json)}
    (h : ∀ m ∈ members, Reads limit levels m.2) (hlimit : stack.length + (levels + 1) ≤ limit)
    (done : List (String × Json)) (k : String) (v : Json) :
    readTokens limit (.object done k :: stack) (.after v) (memberTokens false members ++ ts) =
      readTokens limit stack (.after (.obj (done.reverse ++ (k, v) :: members))) ts := by
  induction members generalizing done k v with
  | nil =>
    rw [memberTokens, List.singleton_append, readTokens_cons rfl, List.reverse_cons]
  | cons m rest ih =>
    obtain ⟨l, w⟩ := m
    obtain ⟨hw, hrest⟩ := List.forall_mem_cons.mp h
    have hopen : (Frame.object ((k, v) :: done) l :: stack).length + levels ≤ limit := by
      rw [List.length_cons]
      omega
    have htokens : memberTokens false ((l, w) :: rest) ++ ts =
        .comma :: .text l :: .colon :: (tokensOf w ++ (memberTokens false rest ++ ts)) := by
      simp [memberTokens]
    have hdone : ((k, v) :: done).reverse ++ (l, w) :: rest =
        done.reverse ++ (k, v) :: (l, w) :: rest := by
      simp
    rw [htokens, readTokens_cons rfl, readTokens_cons rfl, readTokens_cons rfl, hw _ _ _ hopen,
      ih hrest, hdone]

/-- By induction on the levels that a value opens: within an array or object one fewer is left. -/
theorem reads_of_legible (h : Legible levels v) : Reads limit levels v := by
  induction h with
  | null => exact fun _ _ _ _ => by rw [tokensOf, List.singleton_append, readTokens_cons rfl]
  | bool b => exact fun _ _ _ _ => by rw [tokensOf, List.singleton_append, readTokens_cons rfl]
  | num h => exact fun _ _ _ _ => by rw [tokensOf, List.singleton_append, readTokens_cons rfl]
  | str s => exact fun _ _ _ _ => by rw [tokensOf, List.singleton_append, readTokens_cons rfl]
  | @arr levels items h ih =>
    intro stack mayClose ts hlimit
    have hstep : readToken limit stack (.value mayClose) .openArray =
        some (.array [] :: stack, .value true) := if_pos (by omega)
    rw [tokensOf, List.cons_append, readTokens_cons hstep]
    cases items with
    | nil =>
      rw [itemTokens, List.singleton_append, readTokens_cons rfl]
      rfl
    | cons v rest =>
      obtain ⟨hv, hrest⟩ := List.forall_mem_cons.mp ih
      have hopen : (Frame.array [] :: stack).length + levels ≤ limit := by
        rw [List.length_cons]
        omega
      have htokens : itemTokens true (v :: rest) ++ ts =
          tokensOf v ++ (itemTokens false rest ++ ts) := by
        simp [itemTokens]
      rw [htokens, hv _ _ _ hopen, readTokens_items hrest hlimit]
      rfl
  | @obj levels members h ih =>
    intro stack mayClose ts hlimit
    have hstep : readToken limit stack (.value mayClose) .openObject =
        some (stack, .key [] true) := if_pos (by omega)
    rw [tokensOf, List.cons_append, readTokens_cons hstep]
    cases members with
    | nil =>
      rw [memberTokens, List.singleton_append, readTokens_cons rfl]
      rfl
    | cons m rest =>
      obtain ⟨k, v⟩ := m
      obtain ⟨hv, hrest⟩ := List.forall_mem_cons.mp ih
      have hopen : (Frame.object [] k :: stack).length + levels ≤ limit := by
        rw [List.length_cons]
        omega
      have htokens : memberTokens true ((k, v) :: rest) ++ ts =
          .text k :: .colon :: (tokensOf v ++ (memberTokens false rest ++ ts)) := by
        simp [memberTokens]
      rw [htokens, readTokens_cons rfl, readTokens_cons rfl, hv _ _ _ hopen,
        readTokens_members hrest hlimit]
      rfl

/-- A legible value is read back from its text, with or without gaps after it. -/
theorem parse?_pretty_append (h : Legible depthLimit v) {gaps : List Char}
    (hgaps : ∀ c ∈ gaps, isGap c = true) : parse? (v.pretty ++ String.ofList gaps) = some v := by
  have hreads : readTokens depthLimit [] (.value false) (tokensOf v ++ []) = some v :=
    reads_of_legible h [] false [] (Nat.zero_add depthLimit).le
  rw [List.append_nil] at hreads
  rw [parse?, parseWithin?, tokens?_pretty h hgaps, Option.bind_eq_bind, Option.bind_some, hreads]

/-- Printing is undone by parsing, up to the greatest depth that is parsed. -/
theorem parse?_pretty (h : Legible depthLimit v) : parse? v.pretty = some v := by
  have hgaps : parse? (v.pretty ++ String.ofList []) = some v :=
    parse?_pretty_append h (List.forall_mem_nil _)
  rwa [String.ofList_nil, String.append_empty] at hgaps

/-- Sorting a value keeps it legible. -/
theorem legible_sorted (h : Legible levels v) : Legible levels v.sorted := by
  induction h with
  | null => exact .null
  | bool b => exact .bool b
  | num h => exact .num h
  | str s => exact .str s
  | arr h ih =>
    rw [sorted, sortedItems_eq_map]
    exact .arr (List.forall_mem_map.mpr ih)
  | obj h ih =>
    refine .obj fun m hm => ?_
    rcases mem_sortedMembers hm with hnil | ⟨m', hm', heq⟩
    · exact absurd hnil List.not_mem_nil
    · rw [heq]
      exact ih m' hm'

end FlowLint.Json
