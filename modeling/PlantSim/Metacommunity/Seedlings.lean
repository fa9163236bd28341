import PlantSim.Metacommunity.Basic

/-!
# Seedlings in and counts out: the species-by-patch matrices

`r_add_seedlings(seeds)` takes an `Rcpp::IntegerMatrix` with one row per species and one column
per patch, and `r_n_individuals()` answers a matrix of the same shape. R stores a matrix column by
column, so column `p` is the slice `[p * nrow, (p + 1) * nrow)` of its entries.

* `r_add_seedlings` checks both dimensions before it touches a patch, then hands column `p` to
  patch `p` in index order. `rAddSeedlings_outcome` says what it leaves behind in every case: a
  wrong shape changes nothing, and a patch that rejects its column stops the loop with the earlier
  patches updated and the later ones untouched; nothing is rolled back.
* `r_n_individuals` copies each patch's counts after the previous patch's, from the start of a
  zeroed `S × P` matrix, so patch `p`'s counts land in column `p` when every patch has `S` of
  them. `rNIndividuals_spec` says what it returns for any counts: they fill the matrix in order
  with `0` after them, or, when there are more than `S * P` of them, the copy runs past the end.
* `seedlings_counts_round_trip`: on a cleared metacommunity, when each patch adds what it is given
  and counts its species, column `p` of a matrix of seedlings goes to patch `p`, patch `p` then
  counts column `p`, and counting gives the matrix back.
  `rAddSeedlings_adds` is the same composition from any counts: the matrix counted after is the
  one counted before plus the seedlings, entry by entry.
-/

namespace PlantSim

/-- An `Rcpp::IntegerMatrix`: `nrow × ncol` entries, stored column by column. -/
structure IntegerMatrix where
  nrow : Nat
  ncol : Nat
  data : List Int
  length_data : data.length = nrow * ncol
  deriving DecidableEq

/-- `seeds(Rcpp::_, i)`: column `i`. -/
def IntegerMatrix.column (M : IntegerMatrix) (i : Nat) : List Int :=
  (M.data.drop (i * M.nrow)).take M.nrow

theorem eq_flatMap_slices (k : Nat) : ∀ (n : Nat) (l : List Int), l.length = k * n →
    l = (List.range n).flatMap fun i => (l.drop (i * k)).take k
  | 0, l, hl => by simpa using hl
  | n + 1, l, hl => by
    have ih := eq_flatMap_slices k n (l.drop k) (by simp [hl, Nat.mul_succ])
    simp only [List.drop_drop, Nat.add_comm k] at ih
    rw [List.range_succ_eq_map, List.flatMap_cons, List.flatMap_map]
    simp only [Nat.zero_mul, List.drop_zero, Function.comp_def, Nat.succ_mul]
    conv_lhs => rw [← List.take_append_drop k l, ih]

theorem IntegerMatrix.data_eq_columns (M : IntegerMatrix) :
    M.data = (List.range M.ncol).flatMap M.column :=
  eq_flatMap_slices M.nrow M.ncol M.data M.length_data

theorem IntegerMatrix.length_column (M : IntegerMatrix) {q : Nat} (hq : q < M.ncol) :
    (M.column q).length = M.nrow := by
  have : (q + 1) * M.nrow ≤ M.nrow * M.ncol := by
    rw [Nat.mul_comm M.nrow]; exact Nat.mul_le_mul_right _ hq
  simp only [column, List.length_take, List.length_drop, M.length_data, Nat.succ_mul] at this ⊢
  omega

theorem IntegerMatrix.mem_data_of_mem_column {M : IntegerMatrix} {q : Nat} {x : Int}
    (h : x ∈ M.column q) : x ∈ M.data :=
  List.mem_of_mem_drop (List.mem_of_mem_take h)

theorem zipWith_add_replicate_zero (v : List Int) :
    List.zipWith (· + ·) (List.replicate v.length 0) v = v := by
  induction v with
  | nil => rfl
  | cons x v ih => simp [List.replicate_succ, ih]

theorem flatten_zipWith_add (k : Nat) : ∀ (A B : List (List Int)), A.length = B.length →
    (∀ a ∈ A, a.length = k) → (∀ b ∈ B, b.length = k) →
    (List.zipWith (List.zipWith (· + ·)) A B).flatten = List.zipWith (· + ·) A.flatten B.flatten
  | [], _, _, _, _ => rfl
  | _ :: _, [], h, _, _ => by simp at h
  | a :: A, b :: B, h, hA, hB => by
    have hab : a.length = b.length := (hA a (.head _)).trans (hB b (.head _)).symm
    rw [List.zipWith_cons_cons, List.flatten_cons, List.flatten_cons, List.flatten_cons,
      List.zipWith_append _ _ _ _ _ hab, flatten_zipWith_add k A B (by simpa using h)
        (fun x hx => hA x (.tail _ hx)) (fun x hx => hB x (.tail _ hx))]

namespace Metacommunity

variable {α β σ Θ : Type} (P : Patch α β σ)

/-! ## `r_add_seedlings` -/

/-- `patches[i].add_seedlings(seeds_i)` for the patches left, from column `i`: the patches after
the loop, and the exception that stopped it, if any. -/
def addSeedlingsLoop (M : IntegerMatrix) : Nat → List α → List α × Option Fault
  | _, [] => ([], none)
  | i, p :: ps =>
    match P.addSeedlings (M.column i) p with
    | .ok () p' =>
      let r := addSeedlingsLoop M (i + 1) ps
      (p' :: r.1, r.2)
    | .error e p' => (p' :: ps, some e)

/-- `r_add_seedlings(seeds)`: each column is a patch, each row a species. -/
def rAddSeedlings (M : IntegerMatrix) : EStateM Fault (Metacommunity α Θ σ) Unit := fun m =>
  match checkLength M.ncol (size m), checkLength M.nrow (nSpecies m) with
  | .ok (), .ok () =>
    let r := addSeedlingsLoop P M 0 m.patches
    match r.2 with
    | none => .ok () { m with patches := r.1 }
    | some e => .error e { m with patches := r.1 }
  | .error e, _ => .error e m
  | _, .error e => .error e m

@[simp] theorem length_addSeedlingsLoop (M : IntegerMatrix) : ∀ (i : Nat) (ps : List α),
    (addSeedlingsLoop P M i ps).1.length = ps.length
  | _, [] => rfl
  | i, p :: ps => by
    unfold addSeedlingsLoop
    split <;> simp [length_addSeedlingsLoop M (i + 1) ps]

theorem sameShape_rAddSeedlings (M : IntegerMatrix) (m : Metacommunity α Θ σ) :
    SameShape m (stateOf (rAddSeedlings P M m)) := by
  unfold rAddSeedlings
  split
  · dsimp only
    split <;> exact SameShape.of_patches m (by simp)
  all_goals rfl

/-- `ps` is `ps₀` with each patch, from column `i` on, updated by an accepted `add_seedlings` of
its column. -/
def Updated (M : IntegerMatrix) (i : Nat) (ps₀ ps : List α) : Prop :=
  List.Forall₂ (fun (x : Nat × α) p' => P.addSeedlings (M.column x.1) x.2 = .ok () p')
    (ps₀.enumFrom i) ps

theorem addSeedlingsLoop_outcome (M : IntegerMatrix) : ∀ (ps : List α) (i : Nat),
    (∃ ps', Updated P M i ps ps' ∧ addSeedlingsLoop P M i ps = (ps', none)) ∨
    (∃ q e done p', Updated P M i (ps.take q) done ∧ ∃ hq : q < ps.length,
      P.addSeedlings (M.column (i + q)) ps[q] = .error e p' ∧
      addSeedlingsLoop P M i ps = (done ++ p' :: ps.drop (q + 1), some e))
  | [], i => .inl ⟨[], List.Forall₂.nil, rfl⟩
  | p :: ps, i => by
    cases h : P.addSeedlings (M.column i) p with
    | ok u p' =>
      rcases addSeedlingsLoop_outcome M ps (i + 1) with
        ⟨ps', hup, hloop⟩ | ⟨q, e, done, p'', hup, hq, hrej, hloop⟩
      · exact .inl ⟨p' :: ps', List.Forall₂.cons h hup, by simp [addSeedlingsLoop, h, hloop]⟩
      · refine .inr ⟨q + 1, e, p' :: done, p'', List.Forall₂.cons h hup, by simpa using hq, ?_, ?_⟩
        · simpa [Nat.add_assoc, Nat.add_comm 1] using hrej
        · simp [addSeedlingsLoop, h, hloop]
    | error e p' =>
      exact .inr ⟨0, e, [], p', List.Forall₂.nil, by simp, by simpa using h,
        by simp [addSeedlingsLoop, h]⟩

theorem rAddSeedlings_shape_error (M : IntegerMatrix) (m : Metacommunity α Θ σ) :
    (M.ncol ≠ size m → rAddSeedlings P M m = .error (.length M.ncol (size m)) m) ∧
      (M.ncol = size m → M.nrow ≠ nSpecies m →
        rAddSeedlings P M m = .error (.length M.nrow (nSpecies m)) m) :=
  ⟨fun hcol => by simp [rAddSeedlings, checkLength, hcol],
    fun hcol hrow => by simp [rAddSeedlings, checkLength, hcol, hrow]⟩

/-- What `r_add_seedlings` leaves behind: a matrix of the wrong shape raises before any patch
changes; otherwise either every patch takes its column, or the first patch `q` that rejects its
column raises, after patches `0 .. q-1` took theirs and with the patches after `q` untouched. -/
theorem rAddSeedlings_outcome (M : IntegerMatrix) (m : Metacommunity α Θ σ) :
    ((M.ncol ≠ size m ∨ M.nrow ≠ nSpecies m) ∧ ∃ e, rAddSeedlings P M m = .error e m) ∨
    (M.ncol = size m ∧ M.nrow = nSpecies m ∧
      ((∃ ps, Updated P M 0 m.patches ps ∧
          rAddSeedlings P M m = .ok () { m with patches := ps }) ∨
        (∃ q e done p', Updated P M 0 (m.patches.take q) done ∧ ∃ hq : q < m.patches.length,
          P.addSeedlings (M.column q) m.patches[q] = .error e p' ∧
          rAddSeedlings P M m =
            .error e { m with patches := done ++ p' :: m.patches.drop (q + 1) }))) := by
  by_cases hcol : M.ncol = size m
  · by_cases hrow : M.nrow = nSpecies m
    · refine .inr ⟨hcol, hrow, ?_⟩
      have hcheck : checkLength M.ncol (size m) = .ok () ∧
          checkLength M.nrow (nSpecies m) = .ok () :=
        ⟨checkLength_eq_ok.mpr hcol, checkLength_eq_ok.mpr hrow⟩
      rcases addSeedlingsLoop_outcome P M m.patches 0 with
        ⟨ps, hup, hloop⟩ | ⟨q, e, done, p', hup, hq, hrej, hloop⟩
      · exact .inl ⟨ps, hup, by simp [rAddSeedlings, hcheck, hloop]⟩
      · exact .inr ⟨q, e, done, p', hup, hq, by simpa using hrej,
          by simp [rAddSeedlings, hcheck, hloop]⟩
    · exact .inl ⟨.inr hrow, _, (rAddSeedlings_shape_error P M m).2 hcol hrow⟩
  · exact .inl ⟨.inl hcol, _, (rAddSeedlings_shape_error P M m).1 hcol⟩

/-! ## `r_n_individuals` -/

/-- The loop of `r_n_individuals()`: `it = std::copy(n.begin(), n.end(), it)` for each patch left,
from slot `pos` of the matrix's entries. -/
def nIndividualsLoop (buf : List Int) (pos : Nat) : List α → Except Fault (List Int)
  | [] => .ok buf
  | p :: ps =>
    match writeAt buf pos (P.rNIndividuals p) with
    | .error e => .error e
    | .ok buf' => nIndividualsLoop buf' (pos + (P.rNIndividuals p).length) ps

theorem nIndividualsLoop_eq : ∀ (ps : List α) (buf : List Int) (pos : Nat),
    pos + ((ps.map P.rNIndividuals).map List.length).sum ≤ buf.length →
    nIndividualsLoop P buf pos ps = .ok (buf.take pos ++ (ps.map P.rNIndividuals).flatten ++
      buf.drop (pos + ((ps.map P.rNIndividuals).map List.length).sum))
  | [], buf, pos, _ => by simp [nIndividualsLoop]
  | p :: ps, buf, pos, hfit => by
    simp only [List.map_cons, List.sum_cons] at hfit
    have hw : writeAt buf pos (P.rNIndividuals p) = .ok (buf.take pos ++ P.rNIndividuals p ++
        buf.drop (pos + (P.rNIndividuals p).length)) := writeAt_of_le (by omega)
    have hAV : (buf.take pos ++ P.rNIndividuals p).length = pos + (P.rNIndividuals p).length := by
      rw [List.length_append, List.length_take_of_le (by omega)]
    rw [nIndividualsLoop, hw]
    dsimp only
    rw [nIndividualsLoop_eq ps _ _ (by rw [length_writeAt hw]; omega), List.take_left' hAV, ← hAV,
      List.drop_append, List.drop_drop, hAV]
    simp only [List.map_cons, List.flatten_cons, List.sum_cons, List.append_assoc, Nat.add_assoc]

theorem length_nIndividualsLoop {buf out : List Int} {pos : Nat} {ps : List α}
    (h : nIndividualsLoop P buf pos ps = .ok out) : out.length = buf.length := by
  induction ps generalizing buf pos with
  | nil => cases h; rfl
  | cons p ps ih =>
    simp only [nIndividualsLoop] at h
    split at h
    · cases h
    · rename_i buf' hw
      rw [ih h, length_writeAt hw]

/-- `r_n_individuals()`: `Rcpp::IntegerMatrix ret(n_species(), size())`, zeroed, then the loop. -/
def rNIndividuals (m : Metacommunity α Θ σ) : Except Fault IntegerMatrix :=
  match h : nIndividualsLoop P (List.replicate (nSpecies m * size m) 0) 0 m.patches with
  | .error e => .error e
  | .ok data => .ok ⟨nSpecies m, size m, data, by
      rw [length_nIndividualsLoop P h, List.length_replicate]⟩

theorem nIndividualsLoop_overrun : ∀ (ps : List α) (buf : List Int) (pos : Nat), pos ≤ buf.length →
    buf.length < pos + ((ps.map P.rNIndividuals).map List.length).sum →
    nIndividualsLoop P buf pos ps = .error .overrun
  | [], _, _, hpos, h => by simp at h; omega
  | p :: ps, buf, pos, hpos, h => by
    simp only [List.map_cons, List.sum_cons] at h
    rw [nIndividualsLoop]
    by_cases hfit : pos + (P.rNIndividuals p).length ≤ buf.length
    · rw [writeAt_of_le hfit]
      have hlen := length_writeAt (writeAt_of_le hfit)
      exact nIndividualsLoop_overrun ps _ _ (by omega) (by omega)
    · simp [writeAt, hfit]

theorem rNIndividuals_of_le (m : Metacommunity α Θ σ)
    (hle : (m.patches.map P.rNIndividuals).flatten.length ≤ nSpecies m * size m) :
    ∃ hlen, rNIndividuals P m = .ok ⟨nSpecies m, size m,
      (m.patches.map P.rNIndividuals).flatten ++
        List.replicate (nSpecies m * size m - (m.patches.map P.rNIndividuals).flatten.length) 0,
      hlen⟩ := by
  have hloop : nIndividualsLoop P (List.replicate (nSpecies m * size m) 0) 0 m.patches =
      .ok ((m.patches.map P.rNIndividuals).flatten ++
        List.replicate (nSpecies m * size m - (m.patches.map P.rNIndividuals).flatten.length)
          0) := by
    rw [List.length_flatten] at hle ⊢
    rw [nIndividualsLoop_eq P _ _ _ (by simpa using hle)]
    simp [List.drop_replicate]
  unfold rNIndividuals
  split
  · rename_i h; rw [hloop] at h; cases h
  · rename_i h; rw [hloop] at h; cases h
    exact ⟨by rw [List.length_append, List.length_replicate]; omega, rfl⟩

theorem rNIndividuals_of_lt (m : Metacommunity α Θ σ)
    (hlt : nSpecies m * size m < (m.patches.map P.rNIndividuals).flatten.length) :
    rNIndividuals P m = .error .overrun := by
  have hloop := nIndividualsLoop_overrun P m.patches (List.replicate (nSpecies m * size m) 0) 0
    (Nat.zero_le _) (by simpa [List.length_flatten] using hlt)
  unfold rNIndividuals
  split
  · rename_i h; rw [hloop] at h; cases h; rfl
  · rename_i h; rw [hloop] at h; cases h

/-- `r_n_individuals()` faults, by `std::copy` past the end of the matrix, exactly when the patches'
counts total more than `n_species() * size()` entries; otherwise it holds them patch after patch,
column-major, and the entries after them are `0`. -/
theorem rNIndividuals_spec (m : Metacommunity α Θ σ) :
    ((m.patches.map P.rNIndividuals).flatten.length ≤ nSpecies m * size m →
      ∃ hlen, rNIndividuals P m = .ok ⟨nSpecies m, size m,
        (m.patches.map P.rNIndividuals).flatten ++
          List.replicate (nSpecies m * size m - (m.patches.map P.rNIndividuals).flatten.length) 0,
        hlen⟩) ∧
      (nSpecies m * size m < (m.patches.map P.rNIndividuals).flatten.length →
        rNIndividuals P m = .error .overrun) :=
  ⟨rNIndividuals_of_le P m, rNIndividuals_of_lt P m⟩

theorem rNIndividuals_spec_overrun :
    1 * 2 < [1, 2, 3].length ∧
      rNIndividuals countingPatch
        (⟨⟨2, 1⟩, [[1, 2], [3]], 0.0, (), ()⟩ : Metacommunity (List Int) Unit Unit) =
          .error .overrun :=
  ⟨by decide, (rNIndividuals_spec countingPatch _).2 (by decide)⟩

theorem rNIndividuals_of_fit (m : Metacommunity α Θ σ)
    (hfit : ((m.patches.map P.rNIndividuals).map List.length).sum = nSpecies m * size m) :
    ∃ hlen, rNIndividuals P m =
      .ok ⟨nSpecies m, size m, (m.patches.map P.rNIndividuals).flatten, hlen⟩ := by
  have hlen : (m.patches.map P.rNIndividuals).flatten.length = nSpecies m * size m := by
    rw [List.length_flatten, hfit]
  obtain ⟨_, h⟩ := rNIndividuals_of_le P m hlen.le
  simp only [hlen, Nat.sub_self, List.replicate_zero, List.append_nil] at h
  exact ⟨_, h⟩

theorem rNIndividuals_of_counts (m : Metacommunity α Θ σ)
    (hcounts : ∀ p ∈ m.patches, (P.rNIndividuals p).length = nSpecies m) :
    ∃ hlen, rNIndividuals P m =
      .ok ⟨nSpecies m, size m, (m.patches.map P.rNIndividuals).flatten, hlen⟩ :=
  rNIndividuals_of_fit P m (by
    rw [List.map_map, List.map_congr_left (f := List.length ∘ P.rNIndividuals)
      (g := fun _ => nSpecies m) hcounts, List.map_const', List.sum_replicate, smul_eq_mul,
      Nat.mul_comm, size])

/-! ## Seedlings in, counts out -/

section RoundTrip

variable {S : Nat}
  (hadd : ∀ p v, (P.rNIndividuals p).length = S → v.length = S → (∀ x ∈ v, 0 ≤ x) →
    ∃ p', P.addSeedlings v p = .ok () p' ∧
      P.rNIndividuals p' = List.zipWith (· + ·) (P.rNIndividuals p) v)
include hadd

theorem addSeedlingsLoop_counts (M : IntegerMatrix) (hrow : M.nrow = S) (hM : ∀ x ∈ M.data, 0 ≤ x) :
    ∀ (ps : List α) (i : Nat), i + ps.length ≤ M.ncol →
      (∀ p ∈ ps, P.rNIndividuals p = List.replicate S 0) →
      ∃ ps', Updated P M i ps ps' ∧ addSeedlingsLoop P M i ps = (ps', none) ∧
        ps'.map P.rNIndividuals = (List.range' i ps.length).map M.column
  | [], _, _, _ => ⟨[], .nil, rfl, rfl⟩
  | p :: ps, i, hlen, hempty => by
    simp only [List.length_cons] at hlen
    have hcol := M.length_column (q := i) (by omega)
    have hp := hempty p (List.mem_cons_self _ _)
    obtain ⟨p', hacc, hcount⟩ := hadd p (M.column i) (by simp [hp]) (by rw [hcol, hrow])
      (fun x hx => hM x (IntegerMatrix.mem_data_of_mem_column hx))
    obtain ⟨ps', hup, hloop, hcounts⟩ := addSeedlingsLoop_counts M hrow hM ps (i + 1) (by omega)
      (fun q hq => hempty q (List.mem_cons_of_mem _ hq))
    refine ⟨p' :: ps', .cons hacc hup, by simp [addSeedlingsLoop, hacc, hloop], ?_⟩
    rw [List.map_cons, hcounts, hcount, hp, ← hrow, ← hcol, zipWith_add_replicate_zero]
    rfl

theorem addSeedlingsLoop_adds (M : IntegerMatrix) (hrow : M.nrow = S) (hM : ∀ x ∈ M.data, 0 ≤ x) :
    ∀ (ps : List α) (i : Nat), i + ps.length ≤ M.ncol →
      (∀ p ∈ ps, (P.rNIndividuals p).length = S) →
      ∃ ps', addSeedlingsLoop P M i ps = (ps', none) ∧
        ps'.map P.rNIndividuals = List.zipWith (List.zipWith (· + ·))
          (ps.map P.rNIndividuals) ((List.range' i ps.length).map M.column)
  | [], _, _, _ => ⟨[], rfl, rfl⟩
  | p :: ps, i, hlen, hcounts => by
    simp only [List.length_cons] at hlen
    have hcol := M.length_column (q := i) (by omega)
    obtain ⟨p', hacc, hcount⟩ := hadd p (M.column i) (hcounts p (List.mem_cons_self _ _))
      (by rw [hcol, hrow]) (fun x hx => hM x (IntegerMatrix.mem_data_of_mem_column hx))
    obtain ⟨ps', hloop, hps'⟩ := addSeedlingsLoop_adds M hrow hM ps (i + 1) (by omega)
      (fun q hq => hcounts q (List.mem_cons_of_mem _ hq))
    refine ⟨p' :: ps', by simp [addSeedlingsLoop, hacc, hloop], ?_⟩
    rw [List.map_cons, hps', hcount]
    rfl

end RoundTrip

theorem seedlings_counts_round_trip (S : Solver Θ β) (m : Metacommunity α Θ σ) (M : IntegerMatrix)
    (hrow : M.nrow = nSpecies m) (hcol : M.ncol = size m) (hM : ∀ x ∈ M.data, 0 ≤ x)
    (hclear : ∀ p ∈ m.patches, P.rNIndividuals (P.rClear p) = List.replicate (nSpecies m) 0)
    (hadd : ∀ p v, (P.rNIndividuals p).length = nSpecies m → v.length = nSpecies m →
      (∀ x ∈ v, 0 ≤ x) → ∃ p', P.addSeedlings v p = .ok () p' ∧
        P.rNIndividuals p' = List.zipWith (· + ·) (P.rNIndividuals p) v) :
    ∃ ps, Updated P M 0 (m.patches.map P.rClear) ps ∧
      rAddSeedlings P M (rClear P S m) = .ok () { rClear P S m with patches := ps } ∧
      ps.map P.rNIndividuals = (List.range (size m)).map M.column ∧
      rNIndividuals P { rClear P S m with patches := ps } = .ok M := by
  obtain ⟨ps, hup, hloop, hcounts⟩ := addSeedlingsLoop_counts P hadd M hrow hM
    (m.patches.map P.rClear) 0 (by simp [hcol, size]) (by simpa using hclear)
  have hcols : ps.map P.rNIndividuals = (List.range (size m)).map M.column := by
    rw [hcounts, List.length_map, ← List.range_eq_range', size]
  have hsize : ps.length = size m := by simpa using congrArg List.length hcols
  have hdata : (ps.map P.rNIndividuals).flatten = M.data := by
    rw [hcols, M.data_eq_columns, hcol, List.flatMap]
  refine ⟨ps, hup, by simp [rAddSeedlings, checkLength, hcol, hrow, nSpecies, rClear, size,
    hloop], hcols, ?_⟩
  obtain ⟨hlen, hr⟩ := rNIndividuals_of_fit P { rClear P S m with patches := ps } (by
    rw [← List.length_flatten, hdata, M.length_data, hrow, hcol]
    simp [nSpecies, size, rClear, hsize])
  rw [hr]
  cases M
  simp only at hrow hcol hdata
  simp only [Except.ok.injEq, IntegerMatrix.mk.injEq]
  exact ⟨hrow.symm, by simpa [size] using hsize.trans hcol.symm, hdata⟩

theorem seedlings_counts_round_trip_two_patches :
    ∃ ps, Updated countingPatch ⟨1, 2, [1, 2], rfl⟩ 0 ([[4], [0]].map countingPatch.rClear) ps ∧
      rAddSeedlings countingPatch (⟨1, 2, [1, 2], rfl⟩ : IntegerMatrix)
          (rClear countingPatch unitSolver ⟨⟨2, 1⟩, [[4], [0]], 3.5, (), ()⟩) =
        .ok ()
          { rClear countingPatch unitSolver ⟨⟨2, 1⟩, [[4], [0]], 3.5, (), ()⟩ with patches := ps } ∧
      ps.map countingPatch.rNIndividuals =
        (List.range 2).map (⟨1, 2, [1, 2], rfl⟩ : IntegerMatrix).column ∧
      rNIndividuals countingPatch
          { rClear countingPatch unitSolver ⟨⟨2, 1⟩, [[4], [0]], 3.5, (), ()⟩ with patches := ps } =
        .ok ⟨1, 2, [1, 2], rfl⟩ :=
  seedlings_counts_round_trip countingPatch unitSolver ⟨⟨2, 1⟩, [[4], [0]], 3.5, (), ()⟩
    ⟨1, 2, [1, 2], rfl⟩ rfl rfl (by decide) (by decide)
    (fun p v _ _ hv => ⟨_, if_pos hv, rfl⟩)

/-- Adding seedlings to patches that count `n_species()` species, each adding what it is given, adds
the matrix to the counts: `r_n_individuals()` after `r_add_seedlings(M)` is `r_n_individuals()`
before plus `M`, entry by entry. -/
theorem rAddSeedlings_adds (m : Metacommunity α Θ σ) (M : IntegerMatrix)
    (hrow : M.nrow = nSpecies m) (hcol : M.ncol = size m) (hM : ∀ x ∈ M.data, 0 ≤ x)
    (hcounts : ∀ p ∈ m.patches, (P.rNIndividuals p).length = nSpecies m)
    (hadd : ∀ p v, (P.rNIndividuals p).length = nSpecies m → v.length = nSpecies m →
      (∀ x ∈ v, 0 ≤ x) → ∃ p', P.addSeedlings v p = .ok () p' ∧
        P.rNIndividuals p' = List.zipWith (· + ·) (P.rNIndividuals p) v) :
    ∃ N, rNIndividuals P m = .ok N ∧ ∃ m', rAddSeedlings P M m = .ok () m' ∧
      ∃ N', rNIndividuals P m' = .ok N' ∧ N'.nrow = N.nrow ∧ N'.ncol = N.ncol ∧
        N'.data = List.zipWith (· + ·) N.data M.data := by
  obtain ⟨hfit, hN⟩ := rNIndividuals_of_counts P m hcounts
  obtain ⟨ps', hloop, hps'⟩ := addSeedlingsLoop_adds P hadd M hrow hM m.patches 0
    (by simp [hcol, size]) hcounts
  have hsize : ps'.length = size m := by simpa [size] using congrArg List.length hps'
  have hcols : ((List.range' 0 m.patches.length).map M.column).flatten = M.data := by
    rw [M.data_eq_columns, hcol, size, ← List.range_eq_range', List.flatMap]
  have hdata : (ps'.map P.rNIndividuals).flatten =
      List.zipWith (· + ·) (m.patches.map P.rNIndividuals).flatten M.data := by
    rw [hps', flatten_zipWith_add (nSpecies m) _ _ (by simp) (by simpa using hcounts), hcols]
    simp only [List.mem_map, List.mem_range']
    rintro _ ⟨q, ⟨_, hq⟩, rfl⟩
    rw [M.length_column (by rw [hcol, size]; omega), hrow]
  refine ⟨_, hN, { m with patches := ps' },
    by simp [rAddSeedlings, checkLength, hcol, hrow, hloop], ?_⟩
  obtain ⟨_, hr⟩ := rNIndividuals_of_fit P { m with patches := ps' } (by
    rw [← List.length_flatten, hdata, List.length_zipWith, hfit, M.length_data, hrow, hcol,
      Nat.min_self]
    simp [nSpecies, size, hsize])
  exact ⟨_, hr, rfl, hsize, hdata⟩

theorem rAddSeedlings_adds_two_patches :
    ∃ N, rNIndividuals countingPatch (⟨⟨2, 1⟩, [[4], [0]], 3.5, (), ()⟩ : Metacommunity _ _ _) =
        .ok N ∧ ∃ m', rAddSeedlings countingPatch (⟨1, 2, [1, 2], rfl⟩ : IntegerMatrix)
          ⟨⟨2, 1⟩, [[4], [0]], 3.5, (), ()⟩ = .ok () m' ∧
        ∃ N', rNIndividuals countingPatch m' = .ok N' ∧ N'.nrow = N.nrow ∧ N'.ncol = N.ncol ∧
          N'.data = List.zipWith (· + ·) N.data [1, 2] :=
  rAddSeedlings_adds countingPatch (⟨⟨2, 1⟩, [[4], [0]], 3.5, (), ()⟩ : Metacommunity _ Unit _)
    ⟨1, 2, [1, 2], rfl⟩ rfl rfl (by decide) (by decide) (fun p v _ _ hv => ⟨_, if_pos hv, rfl⟩)

theorem rAddSeedlings_partial :
    rAddSeedlings countingPatch (⟨1, 2, [1, -1], rfl⟩ : IntegerMatrix)
        (⟨⟨2, 1⟩, [[0], [0]], 0.0, (), ()⟩ : Metacommunity (List Int) Unit Unit) =
      .error .patch ⟨⟨2, 1⟩, [[1], [0]], 0.0, (), ()⟩ ∧
      [[1], [0]] ≠ ([[0], [0]] : List (List Int)) :=
  ⟨rfl, by decide⟩

end Metacommunity

end PlantSim
