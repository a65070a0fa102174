import Mathlib.Data.List.Induction
import Mathlib.Data.List.Perm.Basic

/-!
# Lists cut into blocks

A stream of elements, some of them flagged, is kept as a list of blocks; a flagged element opens a
block, every other element goes to the last one, and old blocks are dropped from the front.

* `pushLast x bs`: add `x` to the last block; `trim p bs`: drop the first block while the second
  satisfies `p`.
* `Cut flag es d bs`: the blocks `bs` hold `es` without its first part `d`, and are cut at flagged
  elements only. It is kept by `Cut.openBlock`, `Cut.push` and `Cut.drop`.
* `trim_tail`, `trim_head`: what `trim` leaves if `p` holds of an initial part of the blocks.
* `repeats f es`: the elements of the stream, each as often as `f` says of its position
  (`repeats_drop`, **`nodup_repeats_iff`**).
-/

namespace Blocks

variable {α β : Type}

/-! ## Operations -/

/-- Add an element to the last block. -/
def pushLast (x : α) : List (List α) → List (List α)
  | [] => []
  | [b] => [b ++ [x]]
  | b :: c :: bs => b :: pushLast x (c :: bs)

/-- Drop the first block while the second satisfies `p`. -/
def trim (p : β → Bool) : List β → List β
  | b :: c :: bs => if p c then trim p (c :: bs) else b :: c :: bs
  | bs => bs

theorem flatten_pushLast (x : α) {bs : List (List α)} (h : bs ≠ []) :
    (pushLast x bs).flatten = bs.flatten ++ [x] := by
  induction bs using pushLast.induct with
  | case1 => exact absurd rfl h
  | case2 b => simp [pushLast]
  | case3 b c bs ih => simp [pushLast, ih]

theorem map_pushLast (f : α → β) (x : α) (bs : List (List α)) :
    (pushLast x bs).map (List.map f) = pushLast (f x) (bs.map (List.map f)) := by
  induction bs using pushLast.induct with
  | case1 => rfl
  | case2 b => simp [pushLast]
  | case3 b c bs ih => simpa [pushLast] using ih

/-- Pushing to non-empty blocks leaves their first elements alone. -/
theorem head?_pushLast (x : α) {bs : List (List α)} (h : ∀ b ∈ bs, b ≠ []) :
    (pushLast x bs).map List.head? = bs.map List.head? := by
  induction bs using pushLast.induct with
  | case1 => rfl
  | case2 b =>
    have hb : b ≠ [] := h b List.mem_cons_self
    cases b with
    | nil => exact absurd rfl hb
    | cons y b => rfl
  | case3 b c bs ih =>
    have hrest := ih fun b' hb' => h b' (List.mem_cons_of_mem b hb')
    simp only [pushLast, List.map_cons] at hrest ⊢
    rw [hrest]

theorem pushLast_ne_nil (x : α) (bs : List (List α)) : ∀ b ∈ pushLast x bs, b ≠ [] ∨ b ∈ bs := by
  induction bs using pushLast.induct with
  | case1 => simp [pushLast]
  | case2 b => simp [pushLast]
  | case3 b c bs ih =>
    intro b' hb'
    rcases List.mem_cons.mp hb' with rfl | hb'
    · exact Or.inr List.mem_cons_self
    · exact (ih b' hb').imp_right (List.mem_cons_of_mem b)

/-! ## Trimming -/

section Trim

variable (p : β → Bool)

/-- **Trimming drops an initial part**, up to a block that satisfies `p`. -/
theorem exists_trim (bs : List β) : ∃ pre, bs = pre ++ trim p bs ∧
    (pre ≠ [] → ∃ b, (trim p bs).head? = some b ∧ p b = true) := by
  induction bs using trim.induct (p := p) with
  | case1 b c bs h ih =>
    obtain ⟨pre, hpre, hhead⟩ := ih
    rw [trim, if_pos h]
    refine ⟨b :: pre, by rw [List.cons_append, ← hpre], fun _ => ?_⟩
    by_cases hnil : pre = []
    · rw [hnil, List.nil_append] at hpre
      exact ⟨c, by rw [← hpre, List.head?_cons], h⟩
    · exact hhead hnil
  | case2 b c bs h => exact ⟨[], by simp [trim, h], fun h => absurd rfl h⟩
  | case3 bs h =>
    refine ⟨[], ?_, fun h => absurd rfl h⟩
    rw [List.nil_append, trim]
    exact h

theorem trim_ne_nil {bs : List β} (h : bs ≠ []) : trim p bs ≠ [] := by
  obtain ⟨pre, hpre, hhead⟩ := exists_trim p bs
  intro hnil
  rw [hnil, List.append_nil] at hpre
  obtain ⟨b, hb, -⟩ := hhead (hpre ▸ h)
  simp [hnil] at hb

/-- The last block is kept. -/
theorem mem_trim_concat (bs : List β) (b : β) : b ∈ trim p (bs ++ [b]) := by
  obtain ⟨pre, hpre, -⟩ := exists_trim p (bs ++ [b])
  have hne : trim p (bs ++ [b]) ≠ [] := trim_ne_nil p (by simp)
  obtain ⟨rest, c, hrest⟩ := (List.eq_nil_or_concat _).resolve_left hne
  rw [List.concat_eq_append] at hrest
  rw [hrest, ← List.append_assoc] at hpre
  obtain rfl : b = c := (List.cons.inj (List.append_inj' hpre rfl).2).1
  rw [hrest]
  exact List.mem_append_right rest List.mem_cons_self

variable {p} {bs : List β}

/-- If `p` holds of an initial part of the blocks, it holds of none behind the first that is
left. -/
theorem trim_tail (hp : bs.Pairwise fun b c => p c = true → p b = true) :
    ∀ b ∈ (trim p bs).tail, p b = false := by
  induction bs using trim.induct (p := p) with
  | case1 b c bs h ih =>
    rw [trim, if_pos h]
    exact ih hp.tail
  | case2 b c bs h =>
    rw [trim, if_neg h, List.tail_cons]
    intro d hd
    rcases List.mem_cons.mp hd with rfl | hd
    · simpa using h
    · by_contra hpd
      have hcd := (List.pairwise_cons.mp hp.tail).1 d hd
      exact h (hcd (by simpa using hpd))
  | case3 bs h =>
    match bs, h with
    | [], _ => simp [trim]
    | [b], _ => simp [trim]
    | b :: c :: bs, h => exact absurd rfl (h b c bs)

/-- If `p` holds of an initial part of the blocks and of at least one, it holds of the first that
is left. -/
theorem trim_head (hp : bs.Pairwise fun b c => p c = true → p b = true)
    (h : ∃ b ∈ bs, p b = true) : ∃ b, (trim p bs).head? = some b ∧ p b = true := by
  obtain ⟨pre, hpre, hhead⟩ := exists_trim p bs
  by_cases hnil : pre = []
  · -- nothing was dropped, and `p` holds of the first block
    rw [hnil, List.nil_append] at hpre
    rw [← hpre]
    obtain ⟨b, hb, hpb⟩ := h
    cases bs with
    | nil => cases hb
    | cons c bs =>
      refine ⟨c, rfl, ?_⟩
      rcases List.mem_cons.mp hb with rfl | hb
      · exact hpb
      · exact (List.pairwise_cons.mp hp).1 b hb hpb
  · exact hhead hnil

end Trim

/-! ## Cuts -/

/-- **The blocks hold a final part of the stream**, all but `d`, and each block that does not start
with the stream starts with a flagged element. -/
structure Cut (flag : α → Prop) (es d : List α) (bs : List (List α)) : Prop where
  split : es = d ++ bs.flatten
  ne_nil : ∀ b ∈ bs, b ≠ []
  later : ∀ b ∈ bs.tail, ∀ x ∈ b.head?, flag x
  first : d ≠ [] → ∀ b ∈ bs.head?, ∀ x ∈ b.head?, flag x

namespace Cut

variable {flag : α → Prop} {es d : List α} {bs pre rest : List (List α)} {x : α}

theorem nil : Cut flag [] [] [] := ⟨rfl, by simp, by simp, by simp⟩

/-- A flagged element, or the first of all, opens a block. -/
theorem openBlock (h : Cut flag es d bs) (hx : flag x ∨ es = []) :
    Cut flag (es ++ [x]) d (bs ++ [[x]]) := by
  refine ⟨by simp [h.split], ?_, ?_, ?_⟩
  · intro b hb
    rcases List.mem_append.mp hb with hb | hb
    · exact h.ne_nil b hb
    · simp [List.mem_singleton.mp hb]
  · cases bs with
    | nil => simp
    | cons b bs =>
      have hflag : flag x := hx.resolve_right fun hnil => by
        have hb := h.ne_nil b List.mem_cons_self
        have hsplit := h.split
        simp [hnil, hb] at hsplit
      have hlater := h.later
      simp only [List.tail_cons, List.cons_append, List.mem_append] at hlater ⊢
      rintro c (hc | hc)
      · exact hlater c hc
      · obtain rfl := List.mem_singleton.mp hc
        simpa using hflag
  · intro hd
    cases bs with
    | nil =>
      have hflag : flag x := hx.resolve_right fun hnil => by
        have hsplit := h.split
        simp [hnil, hd] at hsplit
      simpa using hflag
    | cons b bs => simpa using h.first hd

/-- Any other element goes to the last block. -/
theorem push (h : Cut flag es d bs) (hbs : bs ≠ []) : Cut flag (es ++ [x]) d (pushLast x bs) := by
  have hheads : (pushLast x bs).map List.head? = bs.map List.head? := head?_pushLast x h.ne_nil
  refine ⟨?_, fun b hb => ?_, fun b hb => ?_, fun hd b hb => ?_⟩
  · rw [flatten_pushLast x hbs, h.split, List.append_assoc]
  · exact (pushLast_ne_nil x bs b hb).elim id (h.ne_nil b)
  · have htail := congrArg List.tail hheads
    rw [← List.map_tail, ← List.map_tail] at htail
    have hmem : b.head? ∈ bs.tail.map List.head? := htail ▸ List.mem_map_of_mem hb
    obtain ⟨c, hc, he⟩ := List.mem_map.mp hmem
    exact he ▸ h.later c hc
  · have hhead := congrArg List.head? hheads
    rw [List.head?_map, List.head?_map, Option.mem_def.mp hb] at hhead
    obtain ⟨c, hc, he⟩ := Option.map_eq_some_iff.mp hhead.symm
    exact he ▸ h.first hd c hc

/-- Blocks may be dropped from the front. -/
theorem drop (h : Cut flag es d (pre ++ rest)) : Cut flag es (d ++ pre.flatten) rest := by
  refine ⟨?_, ?_, ?_, ?_⟩
  · rw [h.split, List.flatten_append, List.append_assoc]
  · exact fun b hb => h.ne_nil b (List.mem_append_right _ hb)
  · intro b hb
    have hlater := h.later b
    cases pre with
    | nil => exact hlater hb
    | cons c pre => exact hlater (List.mem_append_right _ (List.mem_of_mem_tail hb))
  · intro hd b hb
    cases pre with
    | nil => exact h.first (by simpa using hd) b hb
    | cons c pre => exact h.later b (List.mem_append_right _ (List.mem_of_mem_head? hb))

end Cut

/-! ## Elements by position -/

section Repeats

/-- The elements of `es`, the one at position `i` as often as `f i` says. -/
def repeats (f : ℕ → ℕ) (es : List α) : List α :=
  es.zipIdx.flatMap fun x => List.replicate (f x.2) x.1

variable {f g : ℕ → ℕ} {es : List α}

theorem repeats_concat (f : ℕ → ℕ) (es : List α) (x : α) :
    repeats f (es ++ [x]) = repeats f es ++ List.replicate (f es.length) x := by
  rw [repeats, List.zipIdx_append, List.flatMap_append, repeats]
  simp

theorem repeats_congr (h : ∀ i < es.length, f i = g i) : repeats f es = repeats g es := by
  refine List.flatMap_congr fun x hx => ?_
  obtain ⟨e, i⟩ := x
  have hi : i < es.length := by simpa using List.snd_lt_of_mem_zipIdx hx
  rw [h i hi]

theorem repeats_add (f g : ℕ → ℕ) (es : List α) :
    (repeats (fun i => f i + g i) es).Perm (repeats f es ++ repeats g es) := by
  simp only [repeats, List.replicate_add]
  exact (List.flatMap_append_perm _ _ _).symm

theorem repeats_append_of_zero (xs : List α) (h : ∀ i, es.length ≤ i → f i = 0) :
    repeats f (es ++ xs) = repeats f es := by
  induction xs using List.reverseRecOn with
  | nil => rw [List.append_nil]
  | append_singleton xs x ih =>
    have hzero : f (es ++ xs).length = 0 := h _ (by simp)
    rw [← List.append_assoc, repeats_concat, ih, hzero, List.replicate_zero, List.append_nil]

/-- The elements from position `k` on, once each. -/
theorem repeats_drop (k : ℕ) (es : List α) :
    repeats (fun i => if k ≤ i then 1 else 0) es = es.drop k := by
  induction es using List.reverseRecOn with
  | nil => simp [repeats]
  | append_singleton es x ih =>
    rw [repeats_concat, ih]
    by_cases hk : k ≤ es.length
    · rw [if_pos hk, List.drop_append_of_le_length hk, List.replicate_one]
    · have hlen : (es ++ [x]).length ≤ k := by
        rw [List.length_append, List.length_singleton]
        omega
      rw [if_neg hk, List.drop_of_length_le hlen, List.drop_of_length_le (by omega)]
      rfl

theorem subset_repeats : repeats f es ⊆ es := by
  intro e he
  obtain ⟨x, hx, hmem⟩ := List.mem_flatMap.mp he
  rw [List.eq_of_mem_replicate hmem]
  exact List.fst_mem_of_mem_zipIdx hx

/-- **No element comes twice exactly if every position counts at most once.** -/
theorem nodup_repeats_iff (h : es.Nodup) :
    (repeats f es).Nodup ↔ ∀ i < es.length, f i ≤ 1 := by
  induction es using List.reverseRecOn with
  | nil => simp [repeats]
  | append_singleton es x ih =>
    obtain ⟨hes, -, hx⟩ := List.nodup_append.mp h
    have hnot : x ∉ repeats f es := fun hmem =>
      hx x (subset_repeats hmem) x (List.mem_singleton_self x) rfl
    rw [repeats_concat, List.nodup_append, ih hes, List.nodup_replicate, List.length_append,
      List.length_singleton]
    constructor
    · rintro ⟨hall, hlast, -⟩ i hi
      rcases Nat.lt_succ_iff_lt_or_eq.mp hi with hi | rfl
      · exact hall i hi
      · exact hlast
    · intro hall
      refine ⟨fun i hi => hall i (by omega), hall es.length (by omega), fun a ha b hb => ?_⟩
      rw [List.eq_of_mem_replicate hb]
      rintro rfl
      exact hnot ha

end Repeats

end Blocks
