import AdditiveModel.Proofs.Binding
import AdditiveModel.Proofs.Effects
import AdditiveModel.Proofs.Inputs
import AdditiveModel.Proofs.Names

/-! The main input of a component without a specification. Its label is read as an expression, so it is
the data field of that name where the label is a name, whatever else the data and the functions bind.
Any other label is read as what it says. -/

namespace AdditiveModel

variable {F : Type} [Scalar F]

namespace Expression

theorem evaluate_name {text x : String} {scope : Scope F} {v : Value F} (h : scope.lookup x = .ok v) :
    (⟨text, .name x⟩ : Expression).evaluate scope = .ok v := by
  simp [evaluate, evaluateWith, Expr.evaluate, Scope.meaning, Callable.inScope, h, liftError,
    tryCatchThe, MonadExceptOf.tryCatch, Except.tryCatch, pure, Except.pure]

theorem IsOwnName.ne_dataName {x : String} (h : IsOwnName x) : x ≠ Scope.dataName := by
  rintro rfl
  have hpoint : '.' ∈ Scope.dataName.toList := by decide
  exact (Token.isWord_of_name h.name).ne hpoint '.' (Or.inl (by decide)) rfl

end Expression

namespace Data

theorem lookup_field {data v : Value F} {fields : Named (Value F)} {x : String}
    (hfields : fields? data = .ok fields) (hnodup : (Named.names fields).Nodup)
    (hv : (x, v) ∈ fields) (halias : x ≠ Scope.dataAlias) (hdata : x ≠ Scope.dataName) :
    ∃ scope, scope? data = .ok scope ∧ scope.lookup x = .ok v := by
  refine ⟨_, bind_eq_ok.2 ⟨fields, hfields, rfl⟩, ?_⟩
  have hresolve : Scope.resolve x = x := by rw [Scope.resolve, if_neg (by simpa using halias)]
  have hreverse : Named.value? fields.reverse x = some v := by
    refine Named.value_of_mem ?_ (List.mem_reverse.2 hv)
    rw [Named.names, List.map_reverse]
    exact List.nodup_reverse.2 hnodup
  simp [Scope.lookup, Scope.get?, hresolve, Scope.bind, Named.value_write, Ne.symm hdata,
    Scope.value_update, hreverse]

end Data

namespace Component

/-- A value without axes, or a single one on its axis, is repeated; any other array stays as it is. -/
theorem spread_eq {v : Value F} {g : Grid F} (hne : v ≠ .null) (hg : Grid.ofValue v = .ok g)
    (size : Nat) :
    (∀ x, g.cells = [x] → (g.shape = [] ∨ g.shape = [1] ∧ 1 < size) →
      spread? size v = .ok (.array g.kind [size] (List.replicate size x))) ∧
    (g.shape ≠ [] → (g.shape = [1] → size ≤ 1) → spread? size v = .ok (Value.ofGrid g)) := by
  unfold spread?
  split
  · contradiction
  · simp only [hg, bind, Except.bind]
    constructor
    · rintro x hcells (hshape | ⟨hshape, hsize⟩)
      · rw [hshape, hcells]
        rfl
      · simp [hshape, hcells, hsize, pure, Except.pure]
    · intro hshape hone
      split
      · contradiction
      · rename_i heq _
        rw [if_neg (by have := hone heq; omega)]
        rfl
      · rfl

/-- Where the label is a name in its own normal form, a component without a main specification reads
the data field of that name, whatever other fields and functions there are. -/
theorem main_of_label {c : Component F} (hmain : c.main = .null) (hname : Expression.IsOwnName c.label)
    (halias : c.label ≠ Scope.dataAlias) {data v : Value F} {fields : Named (Value F)}
    (hfields : Data.fields? data = .ok fields) (hnodup : (Named.names fields).Nodup)
    (hv : (c.label, v) ∈ fields) :
    specValue? c.mainSpec data = .ok v ∧
    (∀ i, c.input? data = .ok i ↔ ∃ size, Data.length? data = .ok size ∧ spread? size v = .ok i.main ∧
      Reads data size c.group i.group ∧ Reads data size c.replicate i.replicate ∧
      Reads data size c.weights i.scale) ∧
    ∀ i size g, c.input? data = .ok i → Data.length? data = .ok size → v ≠ .null →
      Grid.ofValue v = .ok g →
      (∀ x, g.cells = [x] → (g.shape = [] ∨ g.shape = [1] ∧ 1 < size) →
        i.main = .array g.kind [size] (List.replicate size x)) ∧
      (g.shape ≠ [] → (g.shape = [1] → size ≤ 1) → i.main = Value.ofGrid g) := by
  obtain ⟨scope, hscope, hlookup⟩ :=
    Data.lookup_field hfields hnodup hv halias hname.ne_dataName
  have hspec : specValue? c.mainSpec data = .ok v := by
    have hmainSpec : c.mainSpec = .str c.label := by rw [mainSpec, hmain]
    rw [hmainSpec]
    refine bind_eq_ok.2 ⟨_, hname.ofText, bind_eq_ok.2 ⟨scope, lift_eq_ok.2 hscope, ?_⟩⟩
    exact Expression.evaluate_name hlookup
  have hreads {size : Nat} {w : Value F} : Reads data size c.mainSpec w ↔ spread? size v = .ok w := by
    simp [Reads, hspec]
  refine ⟨hspec, fun i => by simp only [input_eq_ok, hreads], fun i size g hi hsize hne hg => ?_⟩
  obtain ⟨size', hsize', hread, -⟩ := input_eq_ok.1 hi
  obtain rfl := Except.ok.inj (hsize.symm.trans hsize')
  have hread := hreads.1 hread
  obtain ⟨hsingle, hmany⟩ := spread_eq hne hg size
  exact ⟨fun x hcells hshape => Except.ok.inj (hread.symm.trans (hsingle x hcells hshape)),
    fun hshape hone => Except.ok.inj (hread.symm.trans (hmany hshape hone))⟩

theorem isStart_x : Text.Identifier.isStart 'x' = true := by
  obtain ⟨css, hcss, hx⟩ : ∃ css, Text.Identifier.startSet = .ofChars css ∧
      (Text.CodePoints.ofChars css).contains 'x'.toNat = true := by
    apply Exists.intro
    constructor
    · apply Text.CodePoints.Spelled.ofLines
      repeat apply Text.CodePoints.Spelled.cons rfl
      exact .nil
    · decide +kernel
  rw [Text.Identifier.isStart, hcss, hx]

theorem isOwnName_x : Expression.IsOwnName "x" where
  name := by
    have hx : "x".toList = ['x'] := by decide
    simp [hx, Text.Identifier.isName, isStart_x]
  notKeyword := by decide
  normal := by decide +kernel

def labelled (label : String) : Component ℚ := Effects.plainComponent label .offset

def pairData : Value ℚ := .dict [("x", .ofReals [4]), ("exp", .ofReals [1, 2])]

theorem labelled_reads :
    specValue? (labelled "x").mainSpec pairData = .ok (.ofReals [4]) ∧
      (labelled "x").input? pairData = .ok ⟨.ofReals [4, 4], .null, .null, .null⟩ := by
  have hfields : Data.fields? pairData = .ok [("x", .ofReals [4]), ("exp", .ofReals [1, 2])] := rfl
  obtain ⟨hspec, hinput, -⟩ := main_of_label (c := labelled "x") rfl isOwnName_x (by decide) hfields
    (by decide) List.mem_cons_self
  refine ⟨hspec, (hinput _).2 ⟨2, rfl, rfl, ⟨.null, rfl, rfl⟩, ⟨.null, rfl, rfl⟩, ⟨.null, rfl, rfl⟩⟩⟩

def sumData : Value ℚ := .dict [("2 + 3", .ofReals [7, 8])]

/-- The label is read as the expression that it is, although the data have a field of that name. -/
theorem labelled_misread : (labelled "2 + 3").input? sumData =
    .ok ⟨.array .int64 [2] [.int 5, .int 5], .null, .null, .null⟩ := by
  have hspec : specValue? (labelled "2 + 3").mainSpec sumData = .ok (.int 5) := by
    with_unfolding_all rfl
  exact input_eq_ok.2 ⟨2, rfl, ⟨.int 5, hspec, rfl⟩, ⟨.null, rfl, rfl⟩, ⟨.null, rfl, rfl⟩,
    ⟨.null, rfl, rfl⟩⟩

end Component

end AdditiveModel
