import AdditiveModel.Proofs.MainField

/-! A scope is a table in which the last write to a name counts. What is read after any operations is
found in the log of all writes: the symbols at the start, then those of each operation in turn. Reading
knows one alias, which stands for the name of the raw data, and writing knows none, so what is written to
the alias itself is never read. -/

namespace AdditiveModel

namespace Named

variable {α : Type} {log : Named α} {name : String} {v : α}

/-- The last value that the log writes to the name. -/
def LastWrite (log : Named α) (name : String) (v : α) : Prop :=
  ∃ before after, log = before ++ (name, v) :: after ∧ name ∉ names after

theorem value_reverse_iff : value? log.reverse name = some v ↔ LastWrite log name v := by
  simp only [value?, Option.map_eq_some_iff, List.find?_eq_some_iff_append, Prod.exists]
  constructor
  · rintro ⟨k, w, ⟨hk, later, earlier, hlog, hlater⟩, rfl⟩
    obtain rfl : k = name := by simpa using hk
    refine ⟨earlier.reverse, later.reverse, by rw [← log.reverse_reverse, hlog]; simp, ?_⟩
    intro hmem
    obtain ⟨e, he, hname⟩ := List.mem_map.1 hmem
    simpa [hname] using hlater e (List.mem_reverse.1 he)
  · rintro ⟨before, after, rfl, hafter⟩
    refine ⟨name, v, ⟨by simp, after.reverse, before.reverse, by simp, fun e he => ?_⟩, rfl⟩
    have hne : e.1 ≠ name := fun heq => hafter (List.mem_map.2 ⟨e, List.mem_reverse.1 he, heq⟩)
    simpa using hne

theorem exists_lastWrite : (∃ v, LastWrite log name v) ↔ name ∈ names log := by
  simp only [← value_reverse_iff, ← Option.isSome_iff_exists, isSome_value, names, List.map_reverse,
    List.mem_reverse]

theorem LastWrite.append_left (h : LastWrite log name v) (earlier : Named α) :
    LastWrite (earlier ++ log) name v := by
  obtain ⟨before, after, rfl, hafter⟩ := h
  exact ⟨earlier ++ before, after, List.append_assoc .. |>.symm, hafter⟩

theorem LastWrite.append_right (h : LastWrite log name v) {later : Named α} (hlater : name ∉ names later) :
    LastWrite (log ++ later) name v := by
  obtain ⟨before, after, rfl, hafter⟩ := h
  refine ⟨before, after ++ later, by simp, ?_⟩
  rw [names, List.map_append, List.mem_append]
  exact not_or.2 ⟨hafter, hlater⟩

end Named

namespace Scope

open Named

variable {F : Type} {s : Scope F} {log : Named (Value F)}

inductive Operation (F : Type) where
  | bind (name : String) (v : Value F)
  | update (symbols : Named (Value F))

def Operation.writes : Operation F → Named (Value F)
  | bind name v => [(name, v)]
  | update symbols => symbols

def perform (s : Scope F) : Operation F → Scope F
  | .bind name v => s.bind name v
  | .update symbols => s.update symbols

def performAll (s : Scope F) (ops : List (Operation F)) : Scope F := ops.foldl perform s

def Logs (s : Scope F) (log : Named (Value F)) : Prop :=
  ∀ name, value? s.symbols name = value? log.reverse name

theorem Logs.update (h : s.Logs log) (ws : Named (Value F)) : (s.update ws).Logs (log ++ ws) := by
  intro name
  rw [value_update, h name, List.reverse_append, value_append]

theorem Logs.perform (h : s.Logs log) (op : Operation F) : (s.perform op).Logs (log ++ op.writes) := by
  cases op with
  | bind name v => exact h.update [(name, v)]
  | update symbols => exact h.update symbols

theorem Logs.performAll (h : s.Logs log) (ops : List (Operation F)) :
    (s.performAll ops).Logs (log ++ ops.flatMap Operation.writes) := by
  induction ops generalizing s log with
  | nil => simpa [Scope.performAll] using h
  | cons op ops ih =>
    rw [List.flatMap_cons, ← List.append_assoc]
    exact ih (h.perform op)

theorem logs_ofSymbols (symbols : Named (Value F)) : (ofSymbols symbols).Logs symbols := by
  have hempty : (empty : Scope F).Logs [] := fun _ => rfl
  exact hempty.update symbols

/-- All reads agree on the last write of the log to the name that is looked up. -/
structure Records (s : Scope F) (log : Named (Value F)) : Prop where
  lookup {name : String} {v : Value F} : s.lookup name = .ok v ↔ LastWrite log (resolve name) v
  get {name : String} {v : Value F} : s.get? name = some v ↔ LastWrite log (resolve name) v
  contains {name : String} : s.contains name = true ↔ resolve name ∈ Named.names log
  missing {name : String} : resolve name ∉ Named.names log →
    s.lookup name = .error (.unbound (resolve name)) ∧
      Error.category (.unbound (resolve name)) = .evaluation

theorem Logs.records (h : s.Logs log) : s.Records log := by
  have hget {name : String} {v : Value F} : s.get? name = some v ↔ LastWrite log (resolve name) v := by
    rw [get?, h, value_reverse_iff]
  have hsome {name : String} : (s.get? name).isSome ↔ resolve name ∈ Named.names log := by
    simp only [Option.isSome_iff_exists, hget, exists_lastWrite]
  refine ⟨?lookup, hget, hsome, ?missing⟩
  case lookup =>
    intro name v
    rw [← hget, Scope.lookup]
    cases s.get? name <;> simp
  case missing =>
    intro name hnone
    rw [← hsome, Option.not_isSome_iff_eq_none] at hnone
    rw [Scope.lookup, hnone]
    exact ⟨rfl, rfl⟩

theorem get_perform {op : Operation F} {name : String} (h : resolve name ∉ Named.names op.writes) :
    (s.perform op).get? name = s.get? name := by
  have hnone : value? op.writes.reverse (resolve name) = none := by
    rw [← Option.not_isSome_iff_eq_none, isSome_reverse]
    exact h
  have hwrites : s.perform op = s.update op.writes := by cases op <;> rfl
  rw [get?, get?, hwrites, value_update, hnone, Option.none_or]

theorem resolve_of_ne {name : String} (h : name ≠ dataAlias) : resolve name = name := by
  rw [resolve, if_neg (by simpa using h)]

end Scope

theorem Data.logs_scope [Scalar F] {data : Value F} {fields : Named (Value F)} (h : fields? data = .ok fields) :
    ∃ s, scope? data = .ok s ∧ s.Logs (Scope.functions ++ fields ++ [(Scope.dataName, data)]) :=
  ⟨_, bind_eq_ok.2 ⟨fields, h, rfl⟩,
    (((Scope.logs_ofSymbols Scope.functions).update fields).perform (.bind Scope.dataName data))⟩

namespace Scope

variable {F : Type} [Scalar F]

/-- After any operations every read of a name gives the last write to it, and an evaluation error where
there is none; a write changes no read of another name. An expression sees a data field of its name until
the name is written again. The alias, which is the only name that reads as another one, reads the name of
the raw data. -/
theorem last_write_wins (symbols : Named (Value F)) (ops : List (Operation F)) :
    ((ofSymbols symbols).performAll ops).Records (symbols ++ ops.flatMap Operation.writes) ∧
    (∀ (s : Scope F) (op : Operation F) (name : String), resolve name ∉ Named.names op.writes →
      (s.perform op).lookup name = s.lookup name ∧ (s.perform op).get? name = s.get? name ∧
        (s.perform op).contains name = s.contains name) ∧
    (∀ data fields, Data.fields? data = .ok fields → ∃ s, Data.scope? data = .ok s ∧
      (s.performAll ops).Records
        (functions ++ fields ++ [(dataName, data)] ++ ops.flatMap Operation.writes) ∧
      (∀ (e : Expression) (x : String) (v : Value F), e.tree = .name x → x ≠ dataAlias → x ≠ dataName →
        Named.LastWrite fields x v → x ∉ Named.names (ops.flatMap Operation.writes) →
          e.evaluate (s.performAll ops) = .ok v) ∧
      ∀ e : Expression, e.tree = .name dataAlias →
        dataName ∉ Named.names (ops.flatMap Operation.writes) →
          e.evaluate (s.performAll ops) = .ok data) ∧
    (∀ name, name ≠ dataAlias → resolve name = name) ∧ resolve dataAlias = dataName := by
  refine ⟨((logs_ofSymbols symbols).performAll ops).records, ?frame, ?fields,
    fun name => resolve_of_ne, rfl⟩
  case frame =>
    intro s op name hname
    have hget := get_perform (s := s) hname
    simp only [lookup, contains, hget, and_self]
  case fields =>
    intro data fields hfields
    obtain ⟨s, hs, hlogs⟩ := Data.logs_scope hfields
    have hrecords := (hlogs.performAll ops).records
    refine ⟨s, hs, hrecords, ?_, ?_⟩
    · rintro ⟨text, -⟩ x v rfl halias hdata hlast hkept
      refine Expression.evaluate_name (hrecords.lookup.2 ?_)
      rw [resolve_of_ne halias]
      have hraw : x ∉ Named.names [(dataName, data)] := by simpa [Named.names] using hdata
      exact ((hlast.append_left functions).append_right hraw).append_right hkept
    · rintro ⟨text, -⟩ rfl hkept
      exact Expression.evaluate_name (hrecords.lookup.2
        (Named.LastWrite.append_right ⟨_, [], rfl, List.not_mem_nil⟩ hkept))

/-- A name written twice, a name of two writes in one update, and the alias. -/
def rewrites : List (Operation ℚ) :=
  [.bind "x" (.int 2), .update [("y", .int 3), ("x", .int 4), ("y", .int 5)], .bind dataAlias (.int 6)]

theorem rewrites_read :
    let s := (ofSymbols [("x", .int 1)]).performAll rewrites
    s.lookup "x" = .ok (.int 4) ∧ s.lookup "y" = .ok (.int 5) ∧ s.contains "z" = false ∧
      s.lookup dataAlias = .error (.unbound dataName) ∧
      ∃ t, Data.scope? (.dict [("exp", .int 7), ("x", .int 8)]) = .ok t ∧
        (⟨"exp", .name "exp"⟩ : Expression).evaluate (t.performAll rewrites) = .ok (.int 7) := by
  intro s
  obtain ⟨hrecords, -, hdata, hresolve, halias⟩ := last_write_wins [("x", .int 1)] rewrites
  have hx := hresolve "x" (by decide)
  have hy := hresolve "y" (by decide)
  have hz := hresolve "z" (by decide)
  refine ⟨hrecords.lookup.2 ?_, hrecords.lookup.2 ?_, ?_, ?_, ?_⟩
  · rw [hx]
    exact ⟨[("x", .int 1), ("x", .int 2), ("y", .int 3)], [("y", .int 5), (dataAlias, .int 6)], rfl,
      by decide⟩
  · rw [hy]
    exact ⟨[("x", .int 1), ("x", .int 2), ("y", .int 3), ("x", .int 4)], [(dataAlias, .int 6)], rfl,
      by decide⟩
  · have hnone : ¬ s.contains "z" = true := fun h => absurd (hz ▸ hrecords.contains.1 h) (by decide)
    simpa using hnone
  · exact (hrecords.missing (by decide)).1
  · obtain ⟨t, ht, -, hfield, -⟩ := hdata (.dict [("exp", .int 7), ("x", .int 8)]) _ rfl
    exact ⟨t, ht, hfield _ "exp" _ rfl (by decide) (by decide)
      ⟨[], [("x", .int 8)], rfl, by decide⟩ (by decide)⟩

/-- What is written to the alias is not read back, and a data field of its name is not seen. -/
theorem alias_not_read :
    ((ofSymbols ([] : Named (Value ℚ))).bind dataAlias (.int 1)).lookup dataAlias =
      .error (.unbound dataName) ∧
    ∃ s, Data.scope? (.dict [(dataAlias, (.int 5 : Value ℚ))]) = .ok s ∧
      (⟨dataAlias, .name dataAlias⟩ : Expression).evaluate s = .ok (.dict [(dataAlias, .int 5)]) :=
  ⟨rfl, _, rfl, Expression.evaluate_name rfl⟩

end Scope

end AdditiveModel
