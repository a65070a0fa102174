import Mathlib.Algebra.Order.Group.Int

/-!
# Walking through pages

A server answers for an offset with a page of a list, the length of the list and a step. A client
starts at offset `0` and adds the step until it is past the list.

* `Walk A`: the walks that end, where `A` says which answers there are; `VisitsAll`: they end and
  receive every element once.
* `Serves A xs size step`: pages of `size` elements, and `step` is reported.
* `Serves.walk_drop`: a step of one page; `Serves.length_lt`, `Serves.lt_length`, `Serves.not_walk`:
  a step that is too long, too short, or not forward.
* **`Serves.visitsAll_iff`**: the client visits all elements exactly if the step is one page, or
  both the step and a page are at least as long as the list.
* `page xs size i`, `pageCount n size`: the pages by number; **`flatten_pages`**: one after another
  they are the list.
* `Turns Ask`: pages are turned while the list changes; **`Turns.seen`**: what never moves forward
  is seen, or comes after the last page.
-/

namespace Paging

variable {α : Type}

/-- An answer: a page, the number of elements and the step to the next page. -/
structure Response (α : Type) where
  data : List α
  total : ℕ
  limit : ℤ

/-- **A walk that ends**: from an offset, and what is received from there on. -/
inductive Walk (A : ℤ → Response α → Prop) : ℤ → List α → Prop
  | last {offset : ℤ} {r : Response α} (h : A offset r) (hend : r.total ≤ offset + r.limit) :
      Walk A offset r.data
  | next {offset : ℤ} {r : Response α} {rest : List α} (h : A offset r)
      (hmore : offset + r.limit < r.total) (hrest : Walk A (offset + r.limit) rest) :
      Walk A offset (r.data ++ rest)

/-- The client comes to an end, with every element received once. -/
def VisitsAll (A : ℤ → Response α → Prop) (xs : List α) : Prop :=
  (∃ received, Walk A 0 received) ∧ ∀ received, Walk A 0 received → received.Perm xs

theorem visitsAll_congr {A : ℤ → Response α → Prop} {xs ys : List α} (h : xs.Perm ys) :
    VisitsAll A xs ↔ VisitsAll A ys :=
  and_congr_right fun _ => forall₂_congr fun _ _ =>
    ⟨fun hp => hp.trans h, fun hp => hp.trans h.symm⟩

/-- **The server.** What it answers for an offset where nothing is left to visit may have any
page. -/
structure Serves (A : ℤ → Response α → Prop) (xs : List α) (size : ℕ) (step : ℤ) : Prop where
  header : ∀ {offset r}, A offset r → r.total = xs.length ∧ r.limit = step
  page : ∀ {offset : ℤ}, 0 ≤ offset → offset = 0 ∨ offset < xs.length → ∀ {r}, A offset r ↔
    r = ⟨(xs.drop offset.toNat).take size, xs.length, step⟩

namespace Serves

variable {A : ℤ → Response α → Prop} {xs received : List α} {size : ℕ} {step offset : ℤ}

/-- **Page by page.** -/
theorem walk_drop (h : Serves A xs size size) (hsize : 0 < size) (h0 : 0 ≤ offset)
    (hlt : offset = 0 ∨ offset < xs.length) :
    Walk A offset received ↔ received = xs.drop offset.toNat := by
  constructor
  · intro hw
    induction hw with
    | last hr hend =>
      obtain rfl := (h.page h0 hlt).mp hr
      exact List.take_of_length_le (by simp at hend ⊢; omega)
    | @next offset _ _ hr hmore _ ih =>
      obtain rfl := (h.page h0 hlt).mp hr
      have hnext : (offset + (size : ℤ)).toNat = offset.toNat + size := by omega
      dsimp only at hmore ih ⊢
      rw [ih (by omega) (Or.inr hmore), hnext, ← List.drop_drop, List.take_append_drop]
  · rintro rfl
    -- along the pages that are left
    induction hn : xs.length - offset.toNat using Nat.strong_induction_on generalizing offset with
    | _ n ih =>
      have hr := (h.page h0 hlt).mpr rfl
      by_cases hend : (xs.length : ℤ) ≤ offset + size
      · have hlast := Walk.last hr hend
        rwa [List.take_of_length_le (by simp; omega)] at hlast
      · have hnext : (offset + (size : ℤ)).toNat = offset.toNat + size := by omega
        have hpos : 0 ≤ offset + (size : ℤ) := by omega
        have hrest := ih (xs.length - (offset + size).toNat) (by omega) hpos (Or.inr (by omega)) rfl
        rw [hnext] at hrest
        have hwalk := Walk.next hr (not_le.mp hend) hrest
        rwa [← List.drop_drop, List.take_append_drop] at hwalk

/-- All on one page. -/
theorem walk_of_le (h : Serves A xs size step) (hsize : xs.length ≤ size)
    (hstep : (xs.length : ℤ) ≤ step) : Walk A 0 received ↔ received = xs := by
  have hpage : ∀ r, A 0 r ↔ r = ⟨xs, xs.length, step⟩ := by
    intro r
    rw [h.page le_rfl (Or.inl rfl), Int.toNat_zero, List.drop_zero, List.take_of_length_le hsize]
  constructor
  · rintro (⟨hr, -⟩ | ⟨hr, hmore, -⟩)
    · rw [(hpage _).mp hr]
    · rw [(hpage _).mp hr] at hmore
      dsimp only at hmore
      omega
  · rintro rfl
    exact Walk.last ((hpage _).mpr rfl) (by simpa using hstep)

/-- A step that is not forward leads nowhere. -/
theorem not_walk (h : Serves A xs size step) (hstep : step ≤ 0) (hlt : offset + step < xs.length) :
    ¬ Walk A offset received := by
  intro hw
  induction hw with
  | last hr hend =>
    obtain ⟨htotal, hlimit⟩ := h.header hr
    rw [htotal, hlimit] at hend
    omega
  | next hr hmore _ ih =>
    rw [(h.header hr).2] at ih
    exact ih (by omega)

/-- **A step of more than a page** leaves elements out, unless there is one page only. -/
theorem length_lt (h : Serves A xs size step) (hstep : size < step) (hw : Walk A offset received)
    (h0 : 0 ≤ offset) (hlt : offset = 0 ∨ offset < xs.length) :
    received.length + offset ≤ xs.length ∧
      (offset + size < xs.length → received.length + offset < xs.length) := by
  induction hw with
  | last hr _ =>
    obtain rfl := (h.page h0 hlt).mp hr
    simp only [List.length_take, List.length_drop]
    omega
  | next hr hmore _ ih =>
    obtain rfl := (h.page h0 hlt).mp hr
    dsimp only at hmore ih
    have hrest := (ih (by omega) (Or.inr hmore)).1
    simp only [List.length_append, List.length_take, List.length_drop]
    omega

/-- **A step of less than a page** repeats elements, unless it is past all of them. -/
theorem lt_length (h : Serves A xs size step) (hpos : 0 < step) (hstep : step < size)
    (hw : Walk A offset received) (h0 : 0 ≤ offset) (hlt : offset = 0 ∨ offset < xs.length) :
    xs.length ≤ received.length + offset ∧
      (offset + step < xs.length → xs.length < received.length + offset) := by
  induction hw with
  | last hr hend =>
    obtain rfl := (h.page h0 hlt).mp hr
    simp only [List.length_take, List.length_drop] at hend ⊢
    omega
  | next hr hmore _ ih =>
    obtain rfl := (h.page h0 hlt).mp hr
    dsimp only at hmore ih
    have hrest := (ih (by omega) (Or.inr hmore)).1
    simp only [List.length_append, List.length_take, List.length_drop]
    omega

/-- **When the client visits all elements.** -/
theorem visitsAll_iff (h : Serves A xs size step) (hsize : 0 < size) :
    VisitsAll A xs ↔ step = size ∨ xs.length ≤ size ∧ (xs.length : ℤ) ≤ step := by
  constructor
  · rintro ⟨⟨received, hw⟩, hall⟩
    have hlen := (hall received hw).length_eq
    by_contra hne
    simp only [not_or, not_and, not_le] at hne
    obtain ⟨hstep, hlong⟩ := hne
    by_cases hpos : 0 < step
    · rcases lt_or_gt_of_ne hstep with hlt | hgt
      · have hmore := (h.lt_length hpos hlt hw le_rfl (Or.inl rfl)).2
        omega
      · have hless := (h.length_lt hgt hw le_rfl (Or.inl rfl)).2
        omega
    · exact h.not_walk (not_lt.mp hpos) (by omega) hw
  · rintro (rfl | ⟨hfits, hpast⟩)
    · have hiff : ∀ received, Walk A 0 received ↔ received = xs := fun received =>
        h.walk_drop hsize le_rfl (Or.inl rfl)
      exact ⟨⟨xs, (hiff xs).mpr rfl⟩, fun received hw => (hiff received).mp hw ▸ List.Perm.refl _⟩
    · exact ⟨⟨xs, (h.walk_of_le hfits hpast).mpr rfl⟩, fun received hw =>
        (h.walk_of_le hfits hpast).mp hw ▸ List.Perm.refl _⟩

end Serves

/-! ## Numbered pages -/

/-- Page number `i`, from `0` on. -/
def page (xs : List α) (size i : ℕ) : List α := (xs.drop (i * size)).take size

/-- How many pages `n` elements take: `n / size`, rounded up. -/
def pageCount (n size : ℕ) : ℕ := (n + (size - 1)) / size

theorem length_page_le (xs : List α) (size i : ℕ) : (page xs size i).length ≤ size :=
  List.length_take_le _ _

theorem lt_pageCount_iff {n size i : ℕ} (hsize : 0 < size) : i < pageCount n size ↔ i * size < n := by
  rw [pageCount, Nat.lt_iff_add_one_le, Nat.le_div_iff_mul_le hsize, Nat.add_mul, Nat.one_mul]
  omega

/-- The pages before page `count` are the first elements. -/
theorem flatten_pages_take (xs : List α) (size count : ℕ) :
    ((List.range count).map (page xs size)).flatten = xs.take (count * size) := by
  induction count with
  | zero => rw [Nat.zero_mul, List.take_zero]; rfl
  | succ count ih =>
    rw [List.range_succ, List.map_append, List.flatten_append, ih, Nat.succ_mul, List.take_add]
    simp [page]

/-- **All pages, one after another, are the list.** -/
theorem flatten_pages (xs : List α) {size : ℕ} (hsize : 0 < size) :
    ((List.range (pageCount xs.length size)).map (page xs size)).flatten = xs := by
  rw [flatten_pages_take]
  refine List.take_of_length_le (not_lt.mp fun hlt => ?_)
  exact lt_irrefl _ ((lt_pageCount_iff hsize).mpr hlt)

/-! ## Pages of a list that changes -/

section Moving

variable {β σ : Type} [LinearOrder β] {key : α → β} {xs : List α} {size i : ℕ} {x : α}

/-- How many elements have a greater key than `t`. -/
def ahead (key : α → β) (t : β) (xs : List α) : ℕ := xs.countP fun a => t < key a

/-- **The position of an element** with a key of its own, where the greatest keys come first. -/
theorem getElem?_ahead (hsorted : xs.Pairwise fun a b => key b ≤ key a) (hnodup : xs.Nodup)
    (hx : x ∈ xs) (hown : ∀ a ∈ xs, key a = key x → a = x) :
    xs[ahead key (key x) xs]? = some x := by
  induction xs with
  | nil => exact absurd hx List.not_mem_nil
  | cons a xs ih =>
    obtain ⟨hle, hsorted⟩ := List.pairwise_cons.mp hsorted
    obtain ⟨ha, hnodup⟩ := List.nodup_cons.mp hnodup
    rcases List.mem_cons.mp hx with rfl | hx
    · have hnone : ahead key (key x) (x :: xs) = 0 := by
        refine List.countP_eq_zero.mpr fun b hb => ?_
        rcases List.mem_cons.mp hb with rfl | hb
        · simp
        · simpa using hle b hb
      rw [hnone, List.getElem?_cons_zero]
    · have hne : key a ≠ key x := fun he => ha (hown a List.mem_cons_self he ▸ hx)
      have hlt : key x < key a := lt_of_le_of_ne (hle x hx) hne.symm
      have hsucc : ahead key (key x) (a :: xs) = ahead key (key x) xs + 1 :=
        List.countP_cons_of_pos (by simpa using hlt)
      rw [hsucc, List.getElem?_cons_succ]
      exact ih hsorted hnodup hx fun b hb => hown b (List.mem_cons_of_mem _ hb)

/-- An element is on the page that its position says. -/
theorem mem_page {n : ℕ} (hx : xs[n]? = some x) (hfrom : i * size ≤ n) (hto : n < (i + 1) * size) :
    x ∈ page xs size i := by
  rw [Nat.add_mul, Nat.one_mul] at hto
  refine List.mem_of_getElem? (i := n - i * size) ?_
  rw [page, List.getElem?_take_of_lt (by omega), List.getElem?_drop, Nat.add_sub_cancel' hfrom, hx]

/-- **Turning pages while the list changes**, no more than one page on from the last one. Page `i`
is asked for in a state, and `Ask` says which pages and lengths may be answered, and in which state
the answer arrives. -/
inductive Turns (Ask : σ → ℕ → List α → ℕ → σ → Prop) : σ → ℕ → List α → ℕ → ℕ → σ → Prop
  | ask {s s' : σ} {i n : ℕ} {r : List α} (h : Ask s i r n s') : Turns Ask s i r i n s'
  | turn {s s₁ s' : σ} {i j i' n n' : ℕ} {r rest : List α} (h : Ask s i r n s₁) (hj : j ≤ i + 1)
      (hrest : Turns Ask s₁ j rest i' n' s') : Turns Ask s i (r ++ rest) i' n' s'

theorem Turns.keeps {Ask : σ → ℕ → List α → ℕ → σ → Prop} {I : σ → Prop}
    (hask : ∀ {s i r n s'}, I s → Ask s i r n s' → I s') {s s' : σ} {i' n' : ℕ} {seen : List α}
    (h : Turns Ask s i seen i' n' s') (hI : I s) : I s' := by
  induction h with
  | ask h => exact hask hI h
  | turn h _ _ ih => exact ih (hask hI h)

/-- **An element that never moves forward is seen, or comes after the last page.** `rank` is its
position, and a page that is asked for has it, unless it is before that page or comes after it. -/
theorem Turns.seen {Ask : σ → ℕ → List α → ℕ → σ → Prop} {I : σ → Prop} {rank : σ → ℕ}
    {Q : α → Prop} (hask : ∀ {s i r n s'}, I s → Ask s i r n s' → I s' ∧ rank s ≤ rank s' ∧
      (i * size ≤ rank s → (∃ a ∈ r, Q a) ∨ (i + 1) * size ≤ rank s'))
    {s s' : σ} {i' n' : ℕ} {seen : List α} (h : Turns Ask s i seen i' n' s') (hI : I s) {m : ℕ}
    (hm : i ≤ m) (hrank : m * size ≤ rank s) :
    (∃ a ∈ seen, Q a) ∨ (i' + 1) * size ≤ rank s' := by
  induction h generalizing m with
  | @ask s s' i n r h =>
    exact (hask hI h).2.2 ((Nat.mul_le_mul_right size hm).trans hrank)
  | @turn s s₁ s' i j i' n n' r rest h hj hrest ih =>
    obtain ⟨hI', hmono, hshow⟩ := hask hI h
    rcases hshow ((Nat.mul_le_mul_right size hm).trans hrank) with ⟨a, ha, hQ⟩ | hpast
    · exact Or.inl ⟨a, List.mem_append_left _ ha, hQ⟩
    -- `max m (i + 1)` pages are ahead of the element from here on
    have hnext : (∃ a ∈ rest, Q a) ∨ (i' + 1) * size ≤ rank s' := by
      refine ih hI' (m := max m (i + 1)) (hj.trans (le_max_right _ _)) ?_
      rcases max_choice m (i + 1) with hmax | hmax
      · rw [hmax]
        exact hrank.trans hmono
      · rw [hmax]
        exact hpast
    rcases hnext with ⟨a, ha, hQ⟩ | hlast
    · exact Or.inl ⟨a, List.mem_append_right _ ha, hQ⟩
    · exact Or.inr hlast

end Moving

end Paging
