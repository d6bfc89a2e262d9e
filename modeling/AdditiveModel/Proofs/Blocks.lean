import AdditiveModel.Posterior.Gaussian
import AdditiveModel.Proofs.Exact
import AdditiveModel.Proofs.Named
import AdditiveModel.Proofs.Outcome

/-! Vectors that lie one after the other, and cutting them apart again. The deviations of independent
variables are squared onto a diagonal and read back through the lengths of the mean vectors. -/

namespace AdditiveModel

namespace Named

variable {α : Type}

theorem write_of_not_mem {entries : Named α} {name : String} (h : name ∉ names entries) (v : α) :
    write entries name v = entries ++ [(name, v)] := by
  induction entries with
  | nil => rfl
  | cons e entries ih =>
    obtain ⟨k, w⟩ := e
    obtain ⟨hk, hrest⟩ : name ≠ k ∧ name ∉ names entries := by
      simpa [names] using h
    rw [write, if_neg (by simpa using Ne.symm hk), ih hrest, List.cons_append]

theorem writeAll_of_nodup {entries more : Named α} (h : (names (entries ++ more)).Nodup) :
    writeAll entries more = entries ++ more := by
  induction more generalizing entries with
  | nil => simp [writeAll]
  | cons e more ih =>
    obtain ⟨name, v⟩ := e
    have hname : name ∉ names entries := by
      intro hmem
      rw [names, List.map_append, List.nodup_append] at h
      exact h.2.2 name hmem name (by simp) rfl
    have hstep : writeAll entries ((name, v) :: more) = writeAll (write entries name v) more := rfl
    rw [hstep, write_of_not_mem hname]
    have hassoc : entries ++ [(name, v)] ++ more = entries ++ (name, v) :: more := by simp
    rw [ih (hassoc ▸ h), hassoc]

theorem ofList_of_nodup {entries : Named α} (h : (names entries).Nodup) : ofList entries = entries := by
  have hnil : (names ([] ++ entries)).Nodup := h
  exact writeAll_of_nodup hnil

/-- The lengths of named vectors. -/
def sizes (entries : Named (List α)) : List Nat := entries.map (·.2.length)

/-- Named vectors, one after the other. -/
def joined (entries : Named (List α)) : List α := entries.flatMap (·.2)

/-- Things with the same names in the same order are the same where each is found under its name. -/
theorem eq_of_values {l r : Named α} (hnames : names l = names r) (hnodup : (names l).Nodup)
    (h : ∀ e ∈ r, value? l e.1 = some e.2) : l = r := by
  induction l generalizing r with
  | nil =>
    have hnil : r = [] := by simpa [names] using hnames.symm
    exact hnil.symm
  | cons e l ih =>
    obtain ⟨k, v⟩ := e
    cases r with
    | nil => simp [names] at hnames
    | cons p r =>
      obtain ⟨k', w⟩ := p
      simp only [names, List.map_cons, List.cons.injEq, List.nodup_cons] at hnames hnodup
      obtain ⟨rfl, hnames⟩ := hnames
      rw [List.forall_mem_cons] at h
      have hv : v = w := by simpa [value_cons] using h.1
      have hrest : l = r := by
        refine ih hnames hnodup.2 fun e he => ?_
        have hne : k ≠ e.1 := by
          rintro rfl
          exact hnodup.1 (hnames ▸ List.mem_map_of_mem he)
        simpa [value_cons, hne] using h.2 e he
      rw [hv, hrest]

end Named

/-- The root of a square is the absolute value, and no square is negative. -/
class ExactRoots (F : Type) [Scalar F] : Prop where
  sqrt_mul_self (x : F) : Scalar.sqrt (x * x) = Scalar.abs x
  mul_self_not_lt (x : F) : Scalar.lt (x * x) Scalar.zero = false

instance : ExactRoots ℚ where
  sqrt_mul_self x := by
    simp only [Scalar.sqrt, Scalar.abs, Scalar.signed, Rat.sqrt_eq, decide_eq_true_eq]
    split
    · rename_i h
      exact abs_of_neg h
    · rename_i h
      exact abs_of_nonneg (not_lt.1 h)
  mul_self_not_lt x := by
    simpa [Scalar.lt, Scalar.zero, Scalar.ofInt] using mul_self_nonneg x

namespace Gaussian

open Named

variable {F α : Type}

@[simp] theorem names_cut (blocks : Named (List F)) (xs : List α) :
    names (cut blocks xs) = names blocks := by
  induction blocks generalizing xs with
  | nil => rfl
  | cons e blocks ih =>
    obtain ⟨name, block⟩ := e
    rw [cut, names, List.map_cons]
    exact congrArg _ (ih _)

theorem sizes_cut {blocks : Named (List F)} {xs : List α} (h : xs.length = (joined blocks).length) :
    sizes (cut blocks xs) = sizes blocks := by
  induction blocks generalizing xs with
  | nil => rfl
  | cons e blocks ih =>
    obtain ⟨name, block⟩ := e
    have hlength : xs.length = block.length + (joined blocks).length := by
      simpa [joined] using h
    rw [cut, sizes, List.map_cons, List.length_take, hlength, Nat.min_eq_left (Nat.le_add_right _ _)]
    exact congrArg _ (ih (by rw [List.length_drop, hlength, Nat.add_sub_cancel_left]))

theorem joined_cut {blocks : Named (List F)} {xs : List α} (h : xs.length = (joined blocks).length) :
    joined (cut blocks xs) = xs := by
  induction blocks generalizing xs with
  | nil => exact (List.length_eq_zero_iff.1 h).symm
  | cons e blocks ih =>
    obtain ⟨name, block⟩ := e
    have hlength : xs.length = block.length + (joined blocks).length := by
      simpa [joined] using h
    rw [cut, joined, List.flatMap_cons]
    have hrest : joined (cut blocks (xs.drop block.length)) = xs.drop block.length :=
      ih (by rw [List.length_drop, hlength, Nat.add_sub_cancel_left])
    rw [← joined, hrest, List.take_append_drop]

theorem cut_joined {blocks : Named (List F)} {parts : Named (List α)} (hnames : names parts = names blocks)
    (hsizes : sizes parts = sizes blocks) : cut blocks (joined parts) = parts := by
  induction blocks generalizing parts with
  | nil =>
    have hnil : parts = [] := by simpa [names] using hnames
    rw [hnil]
    rfl
  | cons e blocks ih =>
    obtain ⟨name, block⟩ := e
    cases parts with
    | nil => simp [names] at hnames
    | cons p parts =>
      obtain ⟨name', part⟩ := p
      simp only [names, sizes, List.map_cons, List.cons.injEq] at hnames hsizes
      obtain ⟨rfl, hnames⟩ := hnames
      obtain ⟨hsize, hsizes⟩ := hsizes
      rw [cut, joined, List.flatMap_cons, ← hsize, List.take_left, List.drop_left]
      exact congrArg _ (ih hnames hsizes)

variable [Scalar F]

theorem entry_diagonal (variances : List F) {i : Nat} (hi : i < variances.length) :
    Factor.entryAt (Mapper.Covariates.rowsOf variances.length variances.length (diagonal variances)) i i =
      variances[i] := by
  let row (e : F × Nat) : List F :=
    (List.range variances.length).map fun j => if e.2 == j then e.1 else Scalar.zero
  have hrows : Mapper.Covariates.rowsOf variances.length variances.length (diagonal variances) =
      variances.zipIdx.map row := by
    have hlength : ∀ part ∈ variances.zipIdx.map row, part.length = variances.length := by
      intro part hpart
      obtain ⟨e, -, rfl⟩ := List.mem_map.1 hpart
      simp [row]
    have hcut := chunks_flatten hlength
    rw [List.length_map, List.length_zipIdx, List.flatten_eq_flatMap, List.flatMap_map] at hcut
    exact hcut
  simp [hrows, Factor.entryAt, row, hi]

theorem ofCovariance_eq_ok {mean : Named (List F)} {shape : List Nat} {cells : List F}
    {hyperparameters : Named (Value F)} {g : Gaussian F} :
    ofCovariance? mean shape cells hyperparameters = .ok g ↔
      shape = [(joined mean).length, (joined mean).length] ∧
      ∃ hs, List.Forall₂ (fun e h => hyperparameter? e.1 e.2 = .ok h) hyperparameters hs ∧
        g = ⟨mean, Mapper.Covariates.rowsOf (joined mean).length (joined mean).length cells, hs⟩ := by
  simp only [ofCovariance?, joined, check_eq_ok, bind_eq_ok, pure_eq_ok, mapM_eq_ok, bne_iff_ne, not_not,
    @eq_comm _ g, ne_eq]

/-- A hyperparameter has a value that is not zero or less and a deviation that is not negative. -/
theorem hyperparameter_cases {name : String} {pair : Value F} {h : Hyperparameter F}
    (hh : hyperparameter? name pair = .ok h) :
    h.name = name ∧ ∃ value deviation, pair? pair = .ok (value, deviation) ∧
      Value.compare? .le value (.int 0) = .ok false ∧
      Value.compare? .lt deviation (.int 0) = .ok false ∧
      value.toReal? = .ok h.value ∧ deviation.toReal? = .ok h.deviation := by
  obtain ⟨⟨value, deviation⟩, hpair, hh⟩ := bind_eq_ok.1 hh
  obtain ⟨tooSmall, hle, hh⟩ := bind_eq_ok.1 hh
  cases tooSmall with
  | true => cases hh
  | false =>
    obtain ⟨negative, hlt, hh⟩ := bind_eq_ok.1 hh
    cases negative with
    | true => cases hh
    | false =>
      obtain ⟨x, hx, hh⟩ := bind_eq_ok.1 hh
      obtain ⟨y, hy, hh⟩ := bind_eq_ok.1 hh
      cases hh
      exact ⟨rfl, value, deviation, lift_eq_ok.1 hpair, lift_eq_ok.1 hle, lift_eq_ok.1 hlt,
        lift_eq_ok.1 hx, lift_eq_ok.1 hy⟩

/-- The deviations that are given for labels, in the order of the labels. -/
def Given (deviations : Named (Value F)) (labels : List String) (blocks : Named (List F)) : Prop :=
  List.Forall₂ (fun label block => block.1 = label ∧ ∃ v shape, value? deviations label = some v ∧
    Grid.realsOfValue v = .ok (shape, block.2)) labels blocks

theorem Given.names_eq {deviations : Named (Value F)} {labels : List String} {blocks : Named (List F)}
    (h : Given deviations labels blocks) : names blocks = labels := by
  rw [names, map_eq_of_forall₂ (f := id) (h.imp fun label block hblock => hblock.1), List.map_id]

theorem Given.unique {deviations : Named (Value F)} {labels : List String} {blocks blocks' : Named (List F)}
    (h : Given deviations labels blocks) (h' : Given deviations labels blocks') : blocks = blocks' := by
  induction h generalizing blocks' with
  | nil =>
    cases h'
    rfl
  | cons hblock _ ih =>
    obtain ⟨hname, v, shape, hv, hreals⟩ := hblock
    cases h' with
    | cons hblock' hrest =>
      obtain ⟨hname', v', shape', hv', hreals'⟩ := hblock'
      obtain rfl := Option.some.inj (hv.symm.trans hv')
      have hsame := congrArg Prod.snd (Except.ok.inj (hreals.symm.trans hreals'))
      rw [Prod.ext (hname.trans hname'.symm) hsame, ih hrest]

theorem names_vectors {entries : Named (Value F)} {vectors : Named (List F)}
    (h : vectors? entries = .ok vectors) : names vectors = names entries := by
  refine map_eq_of_forall₂ ((mapM_eq_ok.1 h).imp fun e v hv => ?_)
  obtain ⟨r, -, hv⟩ := bind_eq_ok.1 hv
  cases hv
  rfl

def given? (deviations : Named (Value F)) (label : String) : Except Error (List F) :=
  match value? deviations label with
  | some v => do return (← lift (Grid.realsOfValue v)).2
  | none => throw (.fault .key)

theorem given_eq_ok {deviations : Named (Value F)} {label : String} {block : List F} :
    given? deviations label = .ok block ↔ ∃ v shape, value? deviations label = some v ∧
      Grid.realsOfValue v = .ok (shape, block) := by
  unfold given?
  cases value? deviations label with
  | none => simp
  | some v =>
    simp only [bind_eq_ok, lift_eq_ok, pure_eq_ok, Prod.exists, Option.some.injEq]
    constructor
    · rintro ⟨shape, _, hv, rfl⟩
      exact ⟨v, shape, rfl, hv⟩
    · rintro ⟨_, shape, rfl, hv⟩
      exact ⟨shape, block, hv, rfl⟩

theorem givens_eq_ok {mean deviations : Named (Value F)} {blocks : List (List F)} :
    (mean.mapM fun e => given? deviations e.1) = .ok blocks ↔
      ∃ named, Given deviations (names mean) named ∧ named.map (·.2) = blocks := by
  have hstep (e : String × Value F) (block : List F) :
      given? deviations e.1 = .ok block ↔ ∃ p : String × List F, (p.1 = e.1 ∧ ∃ v shape,
        value? deviations e.1 = some v ∧ Grid.realsOfValue v = .ok (shape, p.2)) ∧ p.2 = block := by
    rw [given_eq_ok]
    constructor
    · rintro h
      exact ⟨(e.1, block), ⟨rfl, h⟩, rfl⟩
    · rintro ⟨p, ⟨-, h⟩, rfl⟩
      exact h
  simp only [mapM_eq_ok, hstep, forall₂_exists, Given, names, List.forall₂_map_left_iff]

/-- The squares of the deviations are the variances of a diagonal covariance. -/
theorem ofDeviations_given {mean deviations hyperparameters : Named (Value F)} {blocks means : Named (List F)}
    (hblocks : Given deviations (names mean) blocks) (hmeans : vectors? mean = .ok means) :
    ofDeviations? mean deviations hyperparameters =
      ofCovariance? means [(joined blocks).length, (joined blocks).length]
        (diagonal ((joined blocks).map fun d => d * d)) hyperparameters := by
  have hopen : ofDeviations? mean deviations hyperparameters =
      (mean.mapM fun e => given? deviations e.1) >>= fun blocks => lift (vectors? mean) >>= fun means =>
        ofCovariance? means [(blocks.flatten.map fun d => d * d).length,
          (blocks.flatten.map fun d => d * d).length] (diagonal (blocks.flatten.map fun d => d * d))
          hyperparameters := rfl
  rw [hopen, givens_eq_ok.2 ⟨blocks, hblocks, rfl⟩, hmeans]
  simp only [bind, Except.bind, lift, List.length_map]
  rfl

theorem exists_given {mean deviations hyperparameters : Named (Value F)} {g : Gaussian F}
    (h : ofDeviations? mean deviations hyperparameters = .ok g) :
    ∃ blocks means, Given deviations (names mean) blocks ∧ vectors? mean = .ok means := by
  obtain ⟨_, hblocks, h⟩ := bind_eq_ok.1 h
  obtain ⟨means, hmeans, -⟩ := bind_eq_ok.1 h
  obtain ⟨blocks, hblocks, -⟩ := givens_eq_ok.1 hblocks
  exact ⟨blocks, means, hblocks, lift_eq_ok.1 hmeans⟩

def absolute (blocks : Named (List F)) : Named (List F) :=
  blocks.map fun e => (e.1, e.2.map Scalar.abs)

@[simp] theorem names_absolute (blocks : Named (List F)) : names (absolute blocks) = names blocks := by
  simp [absolute, names]

@[simp] theorem sizes_absolute (blocks : Named (List F)) : sizes (absolute blocks) = sizes blocks := by
  simp [absolute, sizes]

theorem joined_absolute (blocks : Named (List F)) :
    joined (absolute blocks) = (joined blocks).map Scalar.abs := by
  simp [absolute, joined, List.flatMap_map, List.map_flatMap]

/-- The deviations of independent variables are the given ones without their signs. -/
theorem deviations_eq [ExactRoots F] {mean : Named (List F)} {ds : List F} {hs : List (Hyperparameter F)}
    (h : ds.length = (joined mean).length) :
    deviations ⟨mean, Mapper.Covariates.rowsOf ds.length ds.length (diagonal (ds.map fun d => d * d)), hs⟩ =
      ds.map Scalar.abs := by
  have hentry {i : Nat} (hi : i < ds.length) : Factor.entryAt (Mapper.Covariates.rowsOf ds.length ds.length
      (diagonal (ds.map fun d => d * d))) i i = ds[i] * ds[i] := by
    have hdiagonal := entry_diagonal (ds.map fun d => d * d) (i := i) (by simpa using hi)
    simpa using hdiagonal
  apply List.ext_getElem
  · simpa [deviations, size, joined] using h.symm
  · intro i hi hi'
    have hlt : i < ds.length := by simpa using hi'
    simp only [deviations, List.getElem_map, List.getElem_range, hentry hlt, ExactRoots.mul_self_not_lt,
      Bool.false_eq_true, if_false, ExactRoots.sqrt_mul_self]

/-- The deviations of the latent vectors and of the hyperparameters, each under its name. -/
theorem property_sd (g : Gaussian F) (internal : Bool) :
    g.property? (.str "sd") internal = .ok (ofList (cut g.mean g.deviations ++
      g.hyperparameters.map fun h => (h.name, [hyperProperty .sd internal h]))) := by
  have hlatent {mean : Named (List F)} {xs : List F} :
      ((mean.zip (cut mean xs)).map fun e => (e.1.1, latentProperty .sd e.1.2 e.2.2)) = cut mean xs := by
    induction mean generalizing xs with
    | nil => rfl
    | cons e mean ih =>
      rw [cut, List.zip_cons_cons, List.map_cons, ih]
      rfl
  have hproperty : Property.ofValue? (.str "sd" : Value F) = .ok .sd := rfl
  simp only [property?, hproperty, bind, Except.bind]
  rw [if_neg (by decide)]
  exact congrArg (fun latent => Except.ok (ofList (latent ++ _))) hlatent

omit [Scalar F] in
/-- Blocks are read back under their labels exactly when they are as long as the blocks of the mean. -/
theorem values_cut_iff {mean parts : Named (List F)} (rest : Named (List F))
    (hnames : names parts = names mean) (hnodup : (names mean).Nodup)
    (hlength : (joined parts).length = (joined mean).length) :
    (∀ e ∈ parts, value? (cut mean (joined parts) ++ rest) e.1 = some e.2) ↔ sizes parts = sizes mean := by
  have hvalue {e : String × List F} (he : e ∈ parts) :
      value? (cut mean (joined parts) ++ rest) e.1 = value? (cut mean (joined parts)) e.1 := by
    have hmem : e.1 ∈ names (cut mean (joined parts)) := by
      rw [names_cut, ← hnames]
      exact List.mem_map_of_mem he
    obtain ⟨v, hv⟩ := Option.isSome_iff_exists.1 (isSome_value.2 hmem)
    rw [value_append, hv]
    rfl
  constructor
  · intro h
    have hsame : cut mean (joined parts) = parts :=
      eq_of_values (by rw [names_cut, hnames]) (by rwa [names_cut]) fun e he => hvalue he ▸ h e he
    rw [← hsame, sizes_cut hlength]
  · intro hsizes e he
    rw [hvalue he, cut_joined hnames hsizes]
    exact value_of_mem (hnames ▸ hnodup) he

/-- A posterior of independent variables has the given deviations, without their signs, one after the
other in the order of the means. They stand under their own labels exactly when every label has as
many deviations as means; only the total number is checked. -/
theorem deviations_read_back [ExactRoots F] {mean deviations hyperparameters : Named (Value F)}
    (hnodup : (names mean ++ names hyperparameters).Nodup) (internal : Bool) :
    (∀ g, ofDeviations? mean deviations hyperparameters = .ok g →
      ∃ blocks latent hyper, Given deviations (names mean) blocks ∧
        g.property? (.str "sd") internal = .ok (latent ++ hyper) ∧
        names latent = names mean ∧ names hyper = names hyperparameters ∧
        sizes latent = sizes g.mean ∧ joined latent = (joined blocks).map Scalar.abs ∧
        ((∀ e ∈ blocks, value? (latent ++ hyper) e.1 = some (e.2.map Scalar.abs)) ↔
          sizes blocks = sizes g.mean)) ∧
    ∀ blocks means, Given deviations (names mean) blocks → vectors? mean = .ok means →
      (joined blocks).length ≠ (joined means).length →
      ofDeviations? mean deviations hyperparameters =
        .error (.covarianceShape (joined means).length [(joined blocks).length, (joined blocks).length]) := by
  refine ⟨fun g hg => ?_, fun blocks means hblocks hmeans hne => ?_⟩
  · obtain ⟨blocks, means, hblocks, hmeans⟩ := exists_given hg
    rw [ofDeviations_given hblocks hmeans] at hg
    obtain ⟨hshape, hs, hhs, rfl⟩ := ofCovariance_eq_ok.1 hg
    have hlength : (joined blocks).length = (joined means).length := (List.cons.inj hshape).1
    have hmeanNames : names means = names mean := names_vectors hmeans
    have hhyper : names (hs.map fun h => (h.name, [hyperProperty .sd internal h])) =
        names hyperparameters := by
      rw [names, List.map_map]
      exact map_eq_of_forall₂ (hhs.imp fun e h hh => (hyperparameter_cases hh).1)
    have hread := property_sd ⟨means, Mapper.Covariates.rowsOf (joined blocks).length (joined blocks).length
      (diagonal ((joined blocks).map fun d => d * d)), hs⟩ internal
    rw [deviations_eq hlength, ← joined_absolute, ofList_of_nodup] at hread
    · have habsolute : (joined (absolute blocks)).length = (joined means).length := by
        rw [joined_absolute, List.length_map, hlength]
      have hparts : names (absolute blocks) = names means := by
        rw [names_absolute, hblocks.names_eq, hmeanNames]
      have hiff := values_cut_iff (hs.map fun h => (h.name, [hyperProperty .sd internal h])) hparts
        (hmeanNames ▸ (List.nodup_append.1 hnodup).1) habsolute
      rw [sizes_absolute] at hiff
      exact ⟨blocks, _, _, hblocks, hlength ▸ hread, by rw [names_cut, hmeanNames], hhyper,
        sizes_cut habsolute, by rw [joined_cut habsolute, joined_absolute],
        List.forall_mem_map.symm.trans hiff⟩
    · rw [names, List.map_append, ← names, names_cut, hmeanNames, ← names, hhyper]
      exact hnodup
  · rw [ofDeviations_given hblocks hmeans, ofCovariance?]
    have hshape : [(joined blocks).length, (joined blocks).length] ≠
        [(joined means).length, (joined means).length] := by
      simpa using hne
    rw [if_pos (by simpa [joined] using hshape)]
    rfl

def unevenMeans : Named (Value ℚ) := [("a", .ofReals [1, 2]), ("b", .ofReals [3])]

def unevenDeviations : Named (Value ℚ) := [("b", .ofReals [-2]), ("a", .ofReals [1 / 2, 3])]

theorem uneven_read_back : ∃ g out, ofDeviations? unevenMeans unevenDeviations [] = .ok g ∧
    g.property? (.str "sd") false = .ok out ∧ value? out "a" = some [1 / 2, 3] ∧
    value? out "b" = some [2] := by
  obtain ⟨g, hg⟩ : ∃ g, ofDeviations? unevenMeans unevenDeviations [] = .ok g := ⟨_, rfl⟩
  obtain ⟨blocks, latent, hyper, hblocks, hout, -, -, -, -, hread⟩ :=
    (deviations_read_back (by decide) false).1 g hg
  obtain rfl : blocks = [("a", [1 / 2, 3]), ("b", [-2])] := by
    have hgiven : Given unevenDeviations (names unevenMeans) [("a", [1 / 2, 3]), ("b", [-2])] :=
      .cons ⟨rfl, _, _, rfl, rfl⟩ (.cons ⟨rfl, _, _, rfl, rfl⟩ .nil)
    exact hblocks.unique hgiven
  have hvalues := hread.2 (by cases hg; rfl)
  refine ⟨g, _, hg, hout, ?_, ?_⟩
  · rw [hvalues ("a", [1 / 2, 3]) (by simp)]
    decide +kernel
  · rw [hvalues ("b", [-2]) (by simp)]
    decide +kernel

/-- As many deviations as means in total, but other numbers for the labels. -/
theorem misplaced_deviations : ∃ g,
    ofDeviations? unevenMeans [("a", .ofReals [1 / 2]), ("b", .ofReals [2, 3])] [] = .ok g ∧
    g.property? (.str "sd") false = .ok [("a", [1 / 2, 2]), ("b", [3])] :=
  ⟨_, rfl, by decide +kernel⟩

end Gaussian

end AdditiveModel
