import PlantSim.Metacommunity.Basic

/-!
# Seed production and dispersal

`births()` adds up the patches' per-species seed counts, and `add_seeds(seeds)` deals them out:

```
size_t j = size();
for (patch ...) {
  std::vector<int> seeds_i(size());
  double p = 1.0/(double)j;
  for (size_t i = 0; i < size(); i++, j--) {
    const int k = (int)R::rbinom(seeds[i], p);
    seeds[i] -= k;
    seeds_i[i] = k;
  }
  patch->add_seeds(seeds_i);
}
```

The spec's scheme (§4.4) gives the `m`-th patch `Binomial(remaining, 1/(P - m))` of every species,
so that the last patch takes all that is left. The code differs from it in two places: the inner
loop runs over `size()`, the number `P` of patches, not over the `S` species, and `j--` sits in the
inner loop, so `j` drops by `P` per patch instead of by one. For seed counts `≥ 0`:

* `dispersal_one_patch`: with one patch, the patch gets `[seeds[0]]` and nothing else;
* `dispersal_seeds_index`: with more patches than species, the first patch reads `seeds[S]`, past
  the end of `seeds`;
* `dispersal_zero_divisor`: with at least two patches and as many species, the second patch draws
  with `p = 1.0/0.0`, for which `R::rbinom` returns NaN and the `(int)` cast is undefined.

So `add_seeds` has defined behaviour only for one patch (`dispersal_ok_iff`), and then it keeps
`seeds[0]` and loses every other species' seeds. `addSeedsLoop` feeds each patch as soon as its
draws are made, so a fault leaves the patches before it fed and the generator advanced; `dispersal`
is what the loop hands out, and `addSeeds_of_ok` puts the two together.

`births()` starts its sum from `std::vector<int>(size(), 0)`, a vector with one entry per patch:
`births_length` says that whatever `util::sum` (not in this source) does, as long as it keeps its
first operand's length, `births()` returns `size()` entries, and `births_spec` that it returns the
per-slot sums when every patch answers `size()` entries.
-/

namespace PlantSim

/-- `R::rbinom(n, p)` as `add_seeds` calls it, with `p = 1.0/(double)j` named by its divisor `j`:
a draw from the generator's state, giving the number of successes and the state after it. -/
structure Rbinom (σ : Type) where
  draw : σ → Int → Nat → Int × σ

/-- What a binomial draw with `p` in `(0, 1]` returns: `0 ≤ k ≤ n`, and `k = n` when `p = 1`. -/
structure Rbinom.Valid {σ : Type} (R : Rbinom σ) : Prop where
  bounds : ∀ rng n j, 0 ≤ n → 0 < j → 0 ≤ (R.draw rng n j).1 ∧ (R.draw rng n j).1 ≤ n
  certain : ∀ rng n, 0 ≤ n → (R.draw rng n 1).1 = n

/-- A generator with no state whose every draw is its mean, rounded down: `n / j`. -/
def meanRbinom : Rbinom Unit := ⟨fun rng n j => (n / j, rng)⟩

theorem meanRbinom_valid : meanRbinom.Valid where
  bounds _ n _ hn hj := ⟨Int.ediv_nonneg hn (by omega), Int.ediv_le_self _ hn⟩
  certain _ n _ := Int.ediv_one n

/-- `(int)R::rbinom(n, 1.0/(double)j)`: R answers NaN, without drawing, when `p` is not in
`[0, 1]` (`j = 0`) or `n < 0`, and casting NaN to `int` is undefined. -/
def rbinomInt {σ : Type} (R : Rbinom σ) (n : Int) (j : Nat) : EStateM Fault σ Int := fun rng =>
  if j = 0 ∨ n < 0 then .error (.rbinomNaN n j) rng else .ok (R.draw rng n j).1 (R.draw rng n j).2

/-- `j--` on a `size_t`. -/
@[irreducible] def sizeTDec (j : Nat) : Nat := (j + (2 ^ 64 - 1)) % 2 ^ 64

namespace Metacommunity

variable {α β σ Θ : Type} (P : Patch α β σ) (R : Rbinom σ)

/-! ## `add_seeds` -/

/-- The inner loop from slot `i` with `n` passes left, `d` being the `j` that `p` was computed from:
`k = (int)R::rbinom(seeds[i], p); seeds[i] -= k; seeds_i[i] = k;` then `i++, j--`. -/
def drawLoop (d : Nat) : Nat → Nat → List Int → List Int → Nat → σ →
    EStateM.Result Fault σ (List Int × List Int × Nat)
  | 0, _, seeds, seeds_i, j, rng => .ok (seeds, seeds_i, j) rng
  | n + 1, i, seeds, seeds_i, j, rng =>
    match seeds[i]? with
    | none => .error (.seedsIndex i) rng
    | some s =>
      match rbinomInt R s d rng with
      | .error e rng => .error e rng
      | .ok k rng => drawLoop d n (i + 1) (seeds.set i (s - k)) (seeds_i.set i k) (sizeTDec j) rng

/-- The outer loop over the patches left, `size` being `size()`: `std::vector<int> seeds_i(size());
double p = 1.0/(double)j;`, the inner loop, then `patch->add_seeds(seeds_i)`. It answers the
patches, the generator's state, and the fault that stopped it, if any. -/
def addSeedsLoop (size : Nat) : List α → List Int → Nat → σ → List α × σ × Option Fault
  | [], _, _, rng => ([], rng, none)
  | patch :: ps, seeds, j, rng =>
    match drawLoop R j size 0 seeds (List.replicate size 0) j rng with
    | .error e rng => (patch :: ps, rng, some e)
    | .ok (seeds, seeds_i, j) rng =>
      let r := addSeedsLoop size ps seeds j rng
      (P.addSeeds patch seeds_i :: r.1, r.2)

/-- `add_seeds(seeds)`: `size_t j = size();` then the outer loop. -/
def addSeeds (seeds : List Int) : EStateM Fault (Metacommunity α Θ σ) Unit := fun m =>
  let r := addSeedsLoop P R (size m) m.patches seeds (size m) m.rng
  match r.2.2 with
  | none => .ok () { m with patches := r.1, rng := r.2.1 }
  | some e => .error e { m with patches := r.1, rng := r.2.1 }

/-- What `add_seeds` hands out: its outer loop over `n` patches without the `patch->add_seeds`
calls, which the draws do not read. -/
def dispersalLoop (size : Nat) : Nat → List Int → Nat → σ → Except Fault (List (List Int) × σ)
  | 0, _, _, rng => .ok ([], rng)
  | n + 1, seeds, j, rng =>
    match drawLoop R j size 0 seeds (List.replicate size 0) j rng with
    | .error e _ => .error e
    | .ok (seeds, seeds_i, j) rng =>
      match dispersalLoop size n seeds j rng with
      | .error e => .error e
      | .ok (handed, rng) => .ok (seeds_i :: handed, rng)

/-- The seeds `add_seeds(seeds)` hands to each patch, in patch order, and the generator's state
after the last draw. -/
def dispersal (m : Metacommunity α Θ σ) (seeds : List Int) : Except Fault (List (List Int) × σ) :=
  dispersalLoop R (size m) (size m) seeds (size m) m.rng

/-! ## The inner loop -/

theorem sizeTDec_iterate (n j : Nat) :
    sizeTDec^[n + 1] j = (j + (n + 1) * (2 ^ 64 - 1)) % 2 ^ 64 := by
  induction n generalizing j with
  | zero => rw [Function.iterate_one, sizeTDec, Nat.zero_add, Nat.one_mul]
  | succ n ih => rw [Function.iterate_succ_apply, ih, sizeTDec]; omega

theorem sizeTDec_iterate_self (j : Nat) (hj : 0 < j) : sizeTDec^[j] j = 0 := by
  obtain ⟨n, rfl⟩ := Nat.exists_eq_add_of_lt hj
  rw [Nat.zero_add, sizeTDec_iterate]
  omega

theorem sizeTDec_succ (j : Nat) (hj : j + 1 < 2 ^ 64) : sizeTDec (j + 1) = j := by
  rw [sizeTDec]
  omega

variable {R}

theorem drawLoop_pass {d : Nat} (hd : d ≠ 0) {n i : Nat} {seeds : List Int} (seeds_i : List Int)
    (j : Nat) (rng : σ) (hi : i < seeds.length) (hs : 0 ≤ seeds[i]) :
    drawLoop R d (n + 1) i seeds seeds_i j rng =
      drawLoop R d n (i + 1) (seeds.set i (seeds[i] - (R.draw rng seeds[i] d).1))
        (seeds_i.set i (R.draw rng seeds[i] d).1) (sizeTDec j) (R.draw rng seeds[i] d).2 := by
  have hnan : ¬(d = 0 ∨ seeds[i] < 0) := by omega
  rw [drawLoop, List.getElem?_eq_getElem hi]
  simp only [rbinomInt, if_neg hnan]

theorem nonneg_set_succ {seeds : List Int} {i : Nat} (x : Int)
    (h : ∀ k (hk : k < seeds.length), i ≤ k → 0 ≤ seeds[k]) :
    ∀ k (hk : k < (seeds.set i x).length), i + 1 ≤ k → 0 ≤ (seeds.set i x)[k] := fun k hk hik => by
  simp only [List.length_set] at hk
  rw [List.getElem_set_ne (by omega)]
  exact h k hk (by omega)

theorem drawLoop_ok (d : Nat) (hd : d ≠ 0) : ∀ n i (seeds seeds_i : List Int) j (rng : σ),
    i + n ≤ seeds.length → (∀ k (hk : k < seeds.length), i ≤ k → 0 ≤ seeds[k]) →
    ∃ seeds' seeds_i' rng', drawLoop R d n i seeds seeds_i j rng =
      .ok (seeds', seeds_i', sizeTDec^[n] j) rng' ∧
      seeds'.length = seeds.length ∧ seeds_i'.length = seeds_i.length
  | 0, _, seeds, seeds_i, _, rng, _, _ => ⟨seeds, seeds_i, rng, rfl, rfl, rfl⟩
  | n + 1, i, seeds, seeds_i, j, rng, hlen, hnonneg => by
    have hi : i < seeds.length := by omega
    obtain ⟨seeds', seeds_i', rng', h, h1, h2⟩ := drawLoop_ok d hd n (i + 1)
      (seeds.set i (seeds[i] - (R.draw rng seeds[i] d).1)) (seeds_i.set i (R.draw rng seeds[i] d).1)
      (sizeTDec j) (R.draw rng seeds[i] d).2 (by simp; omega) (nonneg_set_succ _ hnonneg)
    rw [drawLoop_pass hd seeds_i j rng hi (hnonneg i hi le_rfl), Function.iterate_succ_apply]
    exact ⟨seeds', seeds_i', rng', h, by simpa using h1, by simpa using h2⟩

theorem drawLoop_seedsIndex (d : Nat) (hd : d ≠ 0) : ∀ n i (seeds seeds_i : List Int) j (rng : σ),
    i ≤ seeds.length → seeds.length < i + n → (∀ k (hk : k < seeds.length), i ≤ k → 0 ≤ seeds[k]) →
    ∃ rng', drawLoop R d n i seeds seeds_i j rng = .error (.seedsIndex seeds.length) rng'
  | 0, _, _, _, _, _, hi, hlen, _ => by omega
  | n + 1, i, seeds, seeds_i, j, rng, hi, hlen, hnonneg => by
    rcases Nat.lt_or_ge i seeds.length with hlt | hge
    · rw [drawLoop_pass hd seeds_i j rng hlt (hnonneg i hlt le_rfl)]
      simpa using drawLoop_seedsIndex d hd n (i + 1)
        (seeds.set i (seeds[i] - (R.draw rng seeds[i] d).1))
        (seeds_i.set i (R.draw rng seeds[i] d).1) (sizeTDec j) (R.draw rng seeds[i] d).2
        (by simp; omega) (by simp; omega)
        (nonneg_set_succ _ hnonneg)
    · obtain rfl : i = seeds.length := by omega
      exact ⟨rng, by simp [drawLoop]⟩

theorem drawLoop_zero_divisor (n i : Nat) (seeds seeds_i : List Int) (j : Nat) (rng : σ)
    (hi : i < seeds.length) :
    drawLoop R 0 (n + 1) i seeds seeds_i j rng = .error (.rbinomNaN seeds[i] 0) rng := by
  simp [drawLoop, List.getElem?_eq_getElem hi, rbinomInt]

theorem drawLoop_cases (d : Nat) : ∀ n i (seeds seeds_i : List Int) j (rng : σ),
    (∃ e rng', drawLoop R d n i seeds seeds_i j rng = .error e rng') ∨
      ∃ seeds' seeds_i' rng', drawLoop R d n i seeds seeds_i j rng =
        .ok (seeds', seeds_i', sizeTDec^[n] j) rng'
  | 0, _, seeds, seeds_i, _, rng => .inr ⟨seeds, seeds_i, rng, rfl⟩
  | n + 1, i, seeds, seeds_i, j, rng => by
    rw [drawLoop]
    split
    · exact .inl ⟨_, _, rfl⟩
    · split
      · exact .inl ⟨_, _, rfl⟩
      · rw [Function.iterate_succ_apply]
        exact drawLoop_cases d n _ _ _ _ _

theorem drawLoop_zero_faults (n i : Nat) (seeds seeds_i : List Int) (j : Nat) (rng : σ) :
    ∃ e, drawLoop R 0 (n + 1) i seeds seeds_i j rng = .error e rng := by
  rw [drawLoop]
  split
  · exact ⟨_, rfl⟩
  · rename_i s _
    exact ⟨.rbinomNaN s 0, by simp [rbinomInt]⟩

theorem length_drawLoop_ok {d n i : Nat} {seeds seeds_i seeds' seeds_i' : List Int} {j j' : Nat}
    {rng rng' : σ} (h : drawLoop R d n i seeds seeds_i j rng = .ok (seeds', seeds_i', j') rng') :
    seeds_i'.length = seeds_i.length := by
  induction n generalizing i seeds seeds_i j rng with
  | zero => cases h; rfl
  | succ n ih =>
    simp only [drawLoop] at h
    split at h
    · cases h
    · split at h
      · cases h
      · simpa using ih h

/-! ## The outer loop and what it deals out -/

@[simp] theorem length_addSeedsLoop (size : Nat) : ∀ (ps : List α) (seeds : List Int) j (rng : σ),
    (addSeedsLoop P R size ps seeds j rng).1.length = ps.length
  | [], _, _, _ => rfl
  | patch :: ps, seeds, j, rng => by
    unfold addSeedsLoop
    split <;> simp [length_addSeedsLoop size ps]

theorem addSeedsLoop_draw_error {size : Nat} (patch : α) (ps : List α) {seeds : List Int} {j : Nat}
    {rng rng' : σ} {e : Fault}
    (h : drawLoop R j size 0 seeds (List.replicate size 0) j rng = .error e rng') :
    addSeedsLoop P R size (patch :: ps) seeds j rng = (patch :: ps, rng', some e) := by
  rw [addSeedsLoop, h]

theorem addSeedsLoop_draw_ok {size : Nat} (patch : α) (ps : List α)
    {seeds seeds' seeds_i : List Int} {j j' : Nat} {rng rng' : σ}
    (h : drawLoop R j size 0 seeds (List.replicate size 0) j rng = .ok (seeds', seeds_i, j') rng') :
    addSeedsLoop P R size (patch :: ps) seeds j rng =
      (P.addSeeds patch seeds_i :: (addSeedsLoop P R size ps seeds' j' rng').1,
        (addSeedsLoop P R size ps seeds' j' rng').2) := by
  rw [addSeedsLoop, h]

theorem dispersalLoop_succ_ok {size n : Nat} {seeds : List Int} {j : Nat} {rng rng' : σ}
    {handed : List (List Int)} (h : dispersalLoop R size (n + 1) seeds j rng = .ok (handed, rng')) :
    ∃ seeds' seeds_i j' rng₁ handed',
      drawLoop R j size 0 seeds (List.replicate size 0) j rng = .ok (seeds', seeds_i, j') rng₁ ∧
      dispersalLoop R size n seeds' j' rng₁ = .ok (handed', rng') ∧
      handed = seeds_i :: handed' := by
  simp only [dispersalLoop] at h
  split at h
  · cases h
  · rename_i hdraw
    split at h
    · cases h
    · rename_i hrest
      cases h
      exact ⟨_, _, _, _, _, hdraw, hrest, rfl⟩

theorem addSeedsLoop_of_ok (size : Nat) :
    ∀ (ps : List α) (seeds : List Int) j (rng : σ) handed rng',
    dispersalLoop R size ps.length seeds j rng = .ok (handed, rng') →
      addSeedsLoop P R size ps seeds j rng = (List.zipWith P.addSeeds ps handed, rng', none)
  | [], _, _, _, _, _, h => by cases h; rfl
  | patch :: ps, seeds, j, rng, handed, rng', h => by
    obtain ⟨_, _, _, _, _, hdraw, hrest, rfl⟩ := dispersalLoop_succ_ok h
    rw [addSeedsLoop_draw_ok P patch ps hdraw, addSeedsLoop_of_ok size ps _ _ _ _ _ hrest]
    rfl

theorem addSeedsLoop_of_error (size : Nat) : ∀ (ps : List α) (seeds : List Int) j (rng : σ) e,
    dispersalLoop R size ps.length seeds j rng = .error e →
      (addSeedsLoop P R size ps seeds j rng).2.2 = some e
  | [], _, _, _, _, h => by cases h
  | patch :: ps, seeds, j, rng, e, h => by
    simp only [List.length_cons, dispersalLoop] at h
    split at h
    · rename_i hdraw
      cases h
      rw [addSeedsLoop_draw_error P patch ps hdraw]
    · rename_i hdraw
      split at h
      · rename_i hrest
        cases h
        rw [addSeedsLoop_draw_ok P patch ps hdraw]
        exact addSeedsLoop_of_error size ps _ _ _ _ hrest
      · cases h

theorem dispersalLoop_lengths (size : Nat) : ∀ n (seeds : List Int) j (rng : σ) handed rng',
    dispersalLoop R size n seeds j rng = .ok (handed, rng') →
      handed.length = n ∧ ∀ v ∈ handed, v.length = size
  | 0, _, _, _, _, _, h => by cases h; simp
  | n + 1, seeds, j, rng, handed, rng', h => by
    obtain ⟨_, _, _, _, _, hdraw, hrest, rfl⟩ := dispersalLoop_succ_ok h
    obtain ⟨hlen, hv⟩ := dispersalLoop_lengths size n _ _ _ _ _ hrest
    exact ⟨by simp [hlen], List.forall_mem_cons.mpr ⟨by simpa using length_drawLoop_ok hdraw, hv⟩⟩

theorem dispersal_lengths {m : Metacommunity α Θ σ} {seeds : List Int}
    {handed : List (List Int)} {rng' : σ} (h : dispersal R m seeds = .ok (handed, rng')) :
    handed.length = size m ∧ ∀ v ∈ handed, v.length = size m :=
  dispersalLoop_lengths (size m) (size m) seeds (size m) m.rng handed rng' h

theorem dispersal_one_patch (m : Metacommunity α Θ σ) (hm : size m = 1) (s : Int) (rest : List Int)
    (hs : 0 ≤ s) :
    dispersal R m (s :: rest) = .ok ([[(R.draw m.rng s 1).1]], (R.draw m.rng s 1).2) := by
  simp [dispersal, hm, dispersalLoop, drawLoop, rbinomInt, not_lt.mpr hs]

theorem dispersal_seeds_index (m : Metacommunity α Θ σ) (seeds : List Int)
    (hP : seeds.length < size m) (hseeds : ∀ s ∈ seeds, 0 ≤ s) :
    dispersal R m seeds = .error (.seedsIndex seeds.length) := by
  obtain ⟨n, hn⟩ : ∃ n, size m = n + 1 := Nat.exists_eq_succ_of_ne_zero (by omega)
  obtain ⟨rng', h⟩ := drawLoop_seedsIndex (R := R) (n + 1) (by omega) (n + 1) 0 seeds
    (List.replicate (n + 1) 0) (n + 1) m.rng (Nat.zero_le _) (by omega)
    (fun k hk _ => hseeds _ (List.getElem_mem hk))
  simp [dispersal, hn, dispersalLoop, h]

theorem dispersal_zero_divisor (m : Metacommunity α Θ σ) (seeds : List Int)
    (hm : 2 ≤ size m) (hS : size m ≤ seeds.length) (hseeds : ∀ s ∈ seeds, 0 ≤ s) :
    ∃ n, dispersal R m seeds = .error (.rbinomNaN n 0) := by
  obtain ⟨n, hn⟩ : ∃ n, size m = n + 2 := ⟨size m - 2, by omega⟩
  obtain ⟨seeds', seeds_i', rng', hdraw, hlen, -⟩ := drawLoop_ok (R := R) (n + 2) (by omega)
    (n + 2) 0 seeds (List.replicate (n + 2) 0) (n + 2) m.rng (by omega)
    (fun k hk _ => hseeds _ (List.getElem_mem hk))
  rw [sizeTDec_iterate_self _ (by omega)] at hdraw
  have hsecond := drawLoop_zero_divisor (R := R) (n + 1) 0 seeds' (List.replicate (n + 2) 0) 0 rng'
    (by omega)
  exact ⟨seeds'[0], by simp [dispersal, hn, dispersalLoop, hdraw, hsecond]⟩

theorem dispersal_faults (m : Metacommunity α Θ σ) (seeds : List Int) (hm : 2 ≤ size m) :
    ∃ e, dispersal R m seeds = .error e := by
  obtain ⟨n, hn⟩ : ∃ n, size m = n + 2 := ⟨size m - 2, by omega⟩
  rw [dispersal, hn, dispersalLoop]
  rcases drawLoop_cases (R := R) (n + 2) (n + 2) 0 seeds (List.replicate (n + 2) 0) (n + 2) m.rng
    with ⟨e, rng', he⟩ | ⟨seeds', seeds_i', rng', hdraw⟩
  · exact ⟨e, by simp only [he]⟩
  · rw [sizeTDec_iterate_self _ (by omega)] at hdraw
    obtain ⟨e, he⟩ :=
      drawLoop_zero_faults (R := R) (n + 1) 0 seeds' (List.replicate (n + 2) 0) 0 rng'
    exact ⟨e, by simp only [hdraw, dispersalLoop, he]⟩

/-- For seed counts `≥ 0`, `add_seeds` is defined only with no patch, or with one patch and at
least one species. -/
theorem dispersal_ok_iff (m : Metacommunity α Θ σ) (seeds : List Int)
    (hseeds : ∀ s ∈ seeds, 0 ≤ s) :
    (∃ r, dispersal R m seeds = .ok r) ↔ size m = 0 ∨ (size m = 1 ∧ seeds ≠ []) := by
  rcases Nat.lt_or_ge (size m) 2 with hm | hm
  · obtain h | h : size m = 0 ∨ size m = 1 := by omega
    · exact iff_of_true ⟨_, by rw [dispersal, h]; rfl⟩ (.inl h)
    · rcases seeds with _ | ⟨s, rest⟩
      · refine iff_of_false ?_ (by simp [h])
        rintro ⟨r, hr⟩
        rw [dispersal, h] at hr
        cases hr
      · exact iff_of_true ⟨_, dispersal_one_patch m h s rest (hseeds s (List.mem_cons_self _ _))⟩
          (.inr ⟨h, List.cons_ne_nil _ _⟩)
  · have hne : ¬(size m = 0 ∨ (size m = 1 ∧ seeds ≠ [])) := by omega
    rw [iff_false_intro hne, iff_false]
    rintro ⟨r, hr⟩
    obtain ⟨e, he⟩ := dispersal_faults (R := R) m seeds hm
    rw [he] at hr
    cases hr

theorem dispersal_ok_iff_one_patch :
    (∀ s ∈ [4], (0 : Int) ≤ s) ∧
      ((∃ r, dispersal meanRbinom
          (⟨⟨1, 1⟩, [[0]], 0.0, (), ()⟩ : Metacommunity (List Int) Unit Unit) [4] = .ok r) ↔
        1 = 0 ∨ (1 = 1 ∧ [4] ≠ ([] : List Int))) :=
  ⟨by decide, dispersal_ok_iff _ [4] (by decide)⟩

/-! ## `add_seeds` from what it deals out -/

theorem sameShape_addSeeds (seeds : List Int) (m : Metacommunity α Θ σ) :
    SameShape m (stateOf (addSeeds P R seeds m)) := by
  dsimp only [addSeeds]
  split <;> exact ⟨rfl, by simp [size]⟩

theorem addSeeds_of_loop_none {m : Metacommunity α Θ σ} {seeds : List Int} {ps : List α} {rng : σ}
    (h : addSeedsLoop P R (size m) m.patches seeds (size m) m.rng = (ps, rng, none)) :
    addSeeds P R seeds m = .ok () { m with patches := ps, rng := rng } := by
  simp only [addSeeds, h]

theorem addSeeds_of_loop_some {m : Metacommunity α Θ σ} {seeds : List Int} {ps : List α} {rng : σ}
    {e : Fault} (h : addSeedsLoop P R (size m) m.patches seeds (size m) m.rng = (ps, rng, some e)) :
    addSeeds P R seeds m = .error e { m with patches := ps, rng := rng } := by
  simp only [addSeeds, h]

theorem addSeeds_of_ok {m : Metacommunity α Θ σ} {seeds : List Int} {handed : List (List Int)}
    {rng : σ} (h : dispersal R m seeds = .ok (handed, rng)) :
    addSeeds P R seeds m =
      .ok () { m with patches := List.zipWith P.addSeeds m.patches handed, rng := rng } :=
  addSeeds_of_loop_none P (addSeedsLoop_of_ok P (size m) m.patches _ _ _ _ _ h)

theorem addSeeds_of_error {m : Metacommunity α Θ σ} {seeds : List Int} {e : Fault}
    (h : dispersal R m seeds = .error e) : ∃ m', addSeeds P R seeds m = .error e m' :=
  ⟨_, by simp only [addSeeds, addSeedsLoop_of_error P (size m) m.patches _ _ _ _ h]; rfl⟩

theorem addSeeds_loses_seeds (a : α) (age : Float) (θ : Θ) (rng : σ) :
    addSeeds P R [0, 5] (⟨⟨1, 2⟩, [a], age, θ, rng⟩ : Metacommunity α Θ σ) =
      .ok () ⟨⟨1, 2⟩, [P.addSeeds a [(R.draw rng 0 1).1]], age, θ, (R.draw rng 0 1).2⟩ :=
  addSeeds_of_ok P (dispersal_one_patch (R := R) ⟨⟨1, 2⟩, [a], age, θ, rng⟩ rfl 0 [5] le_rfl)

theorem addSeeds_divides_by_zero (a b : α) (age : Float) (θ : Θ) (rng : σ) :
    addSeeds P R [3, 4] (⟨⟨2, 2⟩, [a, b], age, θ, rng⟩ : Metacommunity α Θ σ) =
      .error (.rbinomNaN (3 - (R.draw rng 3 2).1) 0)
        ⟨⟨2, 2⟩, [P.addSeeds a [(R.draw rng 3 2).1, (R.draw (R.draw rng 3 2).2 4 2).1], b], age, θ,
          (R.draw (R.draw rng 3 2).2 4 2).2⟩ := by
  have hpatch0 : drawLoop R 2 2 0 [3, 4] [0, 0] 2 rng =
      .ok ([3 - (R.draw rng 3 2).1, 4 - (R.draw (R.draw rng 3 2).2 4 2).1],
        [(R.draw rng 3 2).1, (R.draw (R.draw rng 3 2).2 4 2).1], sizeTDec (sizeTDec 2))
        (R.draw (R.draw rng 3 2).2 4 2).2 := by
    simp only [drawLoop, rbinomInt]
    rfl
  have hj : sizeTDec (sizeTDec 2) = 0 := by
    rw [sizeTDec_succ 1 (by norm_num), sizeTDec_succ 0 (by norm_num)]
  rw [hj] at hpatch0
  have hpatch1 : drawLoop R 0 2 0 [3 - (R.draw rng 3 2).1, 4 - (R.draw (R.draw rng 3 2).2 4 2).1]
      [0, 0] 0 (R.draw (R.draw rng 3 2).2 4 2).2 =
        .error (.rbinomNaN (3 - (R.draw rng 3 2).1) 0) (R.draw (R.draw rng 3 2).2 4 2).2 :=
    drawLoop_zero_divisor 1 0 _ _ 0 _ (by simp)
  have hloop : addSeedsLoop P R 2 [a, b] [3, 4] 2 rng =
      ([P.addSeeds a [(R.draw rng 3 2).1, (R.draw (R.draw rng 3 2).2 4 2).1], b],
        (R.draw (R.draw rng 3 2).2 4 2).2, some (.rbinomNaN (3 - (R.draw rng 3 2).1) 0)) := by
    rw [addSeedsLoop_draw_ok P a [b] hpatch0, addSeedsLoop_draw_error P b [] hpatch1]
  exact addSeeds_of_loop_some P hloop

theorem addSeeds_reads_past_end (a b : α) (age : Float) (θ : Θ) (rng : σ) :
    addSeeds P R [3] (⟨⟨2, 1⟩, [a, b], age, θ, rng⟩ : Metacommunity α Θ σ) =
      .error (.seedsIndex 1) ⟨⟨2, 1⟩, [a, b], age, θ, (R.draw rng 3 2).2⟩ := by
  have hpatch0 : drawLoop R 2 2 0 [3] [0, 0] 2 rng = .error (.seedsIndex 1) (R.draw rng 3 2).2 := by
    simp only [drawLoop, rbinomInt]
    rfl
  exact addSeeds_of_loop_some P (addSeedsLoop_draw_error P a [b] hpatch0)

/-! ## `births()` -/

/-- The loop of `births()`: `n = util::sum(n, patch->births())` for each patch left. -/
def birthsLoop (sum : List Int → List Int → Except Fault (List Int)) :
    List α → List Int → Except Fault (List Int)
  | [], n => .ok n
  | patch :: ps, n =>
    match sum n (P.births patch) with
    | .error e => .error e
    | .ok n => birthsLoop sum ps n

/-- `births()`: `std::vector<int> n(size(), 0);` then the loop. `util::sum`, which is not in this
source, is the parameter `sum`. -/
def births (sum : List Int → List Int → Except Fault (List Int)) (m : Metacommunity α Θ σ) :
    Except Fault (List Int) :=
  birthsLoop P sum m.patches (List.replicate (size m) 0)

theorem birthsLoop_keeps (sum : List Int → List Int → Except Fault (List Int))
    (Q : List Int → Prop) (hsum : ∀ patch n n', sum n (P.births patch) = .ok n' → Q n → Q n') :
    ∀ (ps : List α) (n r : List Int), Q n → birthsLoop P sum ps n = .ok r → Q r
  | [], n, _, hn, h => by cases h; exact hn
  | patch :: ps, n, r, hn, h => by
    simp only [birthsLoop] at h
    split at h
    · cases h
    · rename_i n' hn'
      exact birthsLoop_keeps sum Q hsum ps n' r (hsum patch n n' hn' hn) h

/-- Whatever `util::sum` does, if it keeps its first operand's length, `births()` returns `size()`
entries, one per patch. -/
theorem births_length (sum : List Int → List Int → Except Fault (List Int))
    (hsum : ∀ a b c, sum a b = .ok c → c.length = a.length) (m : Metacommunity α Θ σ)
    (r : List Int) (hr : births P sum m = .ok r) : r.length = size m :=
  birthsLoop_keeps P sum (fun n => n.length = size m)
    (fun _ _ _ h hn => (hsum _ _ _ h).trans hn) m.patches _ r (List.length_replicate _ _) hr

/-- `util::sum` as the model runs it on concrete inputs: `check_length` of the operands, then
entrywise addition. -/
def checkedSum (a b : List Int) : Except Fault (List Int) := do
  checkLength b.length a.length
  return List.zipWith (· + ·) a b

theorem length_checkedSum {a b c : List Int} (h : checkedSum a b = .ok c) :
    c.length = a.length := by
  simp only [checkedSum, checkLength] at h
  split at h
  · cases h; simp; omega
  · cases h

theorem checkedSum_of_length {a b : List Int} (h : a.length = b.length) :
    checkedSum a b = .ok (List.zipWith (· + ·) a b) := by
  simp [checkedSum, checkLength, h]

theorem births_two_patches_one_species :
    births countingPatch checkedSum
      (⟨⟨2, 1⟩, [[1], [2]], 0.0, (), ()⟩ : Metacommunity (List Int) Unit Unit) ≠ .ok [3] :=
  fun hr => absurd
    (births_length countingPatch checkedSum (fun _ _ _ => length_checkedSum) _ [3] hr) (by decide)

theorem birthsLoop_spec (sum : List Int → List Int → Except Fault (List Int))
    (hsum : ∀ a b, a.length = b.length → sum a b = .ok (List.zipWith (· + ·) a b)) (L : Nat) :
    ∀ (ps : List α) (n : List Int), n.length = L → (∀ patch ∈ ps, (P.births patch).length = L) →
      birthsLoop P sum ps n =
        .ok ((List.range L).map fun s => n.getD s 0 + (ps.map fun p => (P.births p).getD s 0).sum)
  | [], n, hn, _ => by
    simp only [birthsLoop, List.map_nil, List.sum_nil, Int.add_zero]
    congr 1
    apply List.ext_getElem (by simp [hn])
    intro s h1 _
    simp [List.getElem?_eq_getElem h1]
  | p :: ps, n, hn, hps => by
    have hp := hps p (List.mem_cons_self _ _)
    rw [birthsLoop, hsum _ _ (by rw [hn, hp])]
    dsimp only
    rw [birthsLoop_spec sum hsum L ps _ (by simp [hn, hp])
      (fun q hq => hps q (List.mem_cons_of_mem _ hq))]
    congr 1
    refine List.map_congr_left fun s hs => ?_
    rw [List.mem_range] at hs
    have h1 : s < n.length := by omega
    have h2 : s < (P.births p).length := by omega
    simp only [List.getD_eq_getElem?_getD, List.getElem?_zipWith, List.getElem?_eq_getElem h1,
      List.getElem?_eq_getElem h2, List.map_cons, List.sum_cons, Option.getD_some]
    omega

/-- With `util::sum` adding vectors of equal length entry by entry, and every patch answering
`size()` entries, entry `s` of `births()` is the patches' entries `s` added. -/
theorem births_spec (sum : List Int → List Int → Except Fault (List Int))
    (hsum : ∀ a b, a.length = b.length → sum a b = .ok (List.zipWith (· + ·) a b))
    (m : Metacommunity α Θ σ) (hbirths : ∀ patch ∈ m.patches, (P.births patch).length = size m) :
    births P sum m =
      .ok ((List.range (size m)).map fun s =>
        (m.patches.map fun p => (P.births p).getD s 0).sum) := by
  rw [births, birthsLoop_spec P sum hsum (size m) _ _ (by simp) hbirths]
  congr 1
  refine List.map_congr_left fun s hs => ?_
  rw [List.mem_range] at hs
  simp [hs]

theorem births_spec_two_patches :
    (∀ a b : List Int, a.length = b.length → checkedSum a b = .ok (List.zipWith (· + ·) a b)) ∧
      (∀ patch ∈ [[1, 2], [3, 4]], (countingPatch.births patch).length = 2) ∧
      births countingPatch checkedSum
          (⟨⟨2, 2⟩, [[1, 2], [3, 4]], 0.0, (), ()⟩ : Metacommunity (List Int) Unit Unit) =
        .ok ((List.range 2).map fun s => ([[1, 2], [3, 4]].map fun p =>
          (countingPatch.births p).getD s 0).sum) :=
  ⟨fun _ _ => checkedSum_of_length, by decide,
    births_spec countingPatch checkedSum (fun _ _ => checkedSum_of_length) _ (by decide)⟩

end Metacommunity

end PlantSim
