import MiniLisp.Eval

/-!
What names mean. `Resolves` gives the rules for atoms in the order in which they are tried, and
`resolves_resolve` and `Resolves.eq_resolve` say that `Environment.resolve` follows them.
-/

namespace MiniLisp

/-- The innermost frame that has the name binds it to the value. -/
inductive Binds : Environment → String → Value → Prop
  | here {frame : Frame} {env : Environment} {name : String} {v : Value}
      (h : frame.get? name = some v) : Binds (frame :: env) name v
  | outer {frame : Frame} {env : Environment} {name : String} {v : Value}
      (h : frame.get? name = none) (rest : Binds env name v) : Binds (frame :: env) name v

/-- No frame has the name. -/
def Lacks (env : Environment) (name : String) : Prop :=
  ∀ frame ∈ env, Frame.get? frame name = none

/-- An atom that no frame binds and that is no integer. -/
structure IsFreeWord (env : Environment) (text : String) : Prop where
  lacks : Lacks env text
  notInteger : Numeral.read text = .ok none

/-- The value of an atom, or the fault that it has none. The frames come first, then integers, then
the words for the booleans, then the names of the primitive operations. -/
inductive Resolves (env : Environment) (text : String) : Except Fault Value → Prop
  | bound {v : Value} (h : Binds env text v) : Resolves env text (.ok v)
  | integer {n : Int} (lacks : Lacks env text) (h : Numeral.read text = .ok (some n)) :
      Resolves env text (.ok (.int n))
  | digits {limit : DigitLimit} (lacks : Lacks env text) (h : Numeral.read text = .error limit) :
      Resolves env text (.error (.digits limit))
  | isTrue (word : IsFreeWord env text) (h : text = trueWord ∨ text = elseWord) :
      Resolves env text (.ok (.bool true))
  | isFalse (word : IsFreeWord env text) (h : text = falseWord) :
      Resolves env text (.ok (.bool false))
  | primitive {op : Primitive} (word : IsFreeWord env text) (h : text = op.name) :
      Resolves env text (.ok (.primitive op))
  | unbound (word : IsFreeWord env text) (notBoolean : text ∉ [trueWord, elseWord, falseWord])
      (notPrimitive : ∀ op : Primitive, text ≠ op.name) : Resolves env text (.error (.unbound text))

/-! ## Agreement with the evaluator -/

theorem binds_iff {env : Environment} {name : String} {v : Value} :
    Binds env name v ↔ env.get? name = some v := by
  induction env with
  | nil =>
    constructor
    · exact fun h => nomatch h
    · exact fun h => nomatch h
  | cons frame env ih =>
    rw [Environment.get?_cons]
    cases hframe : frame.get? name with
    | none =>
      rw [Option.none_or]
      constructor
      · intro h
        cases h with
        | here hv => rw [hframe] at hv; cases hv
        | outer _ rest => exact ih.1 rest
      · exact fun h => .outer hframe (ih.2 h)
    | some w =>
      rw [Option.some_or]
      constructor
      · intro h
        cases h with
        | here hv => rw [← hframe, hv]
        | outer hnone _ => rw [hframe] at hnone; cases hnone
      · exact fun h => .here (by rw [hframe, h])

theorem lacks_iff {env : Environment} {name : String} :
    Lacks env name ↔ env.get? name = none := by
  rw [Lacks, Environment.get?, List.findSome?_eq_none_iff]

theorem Lacks.not_binds {env : Environment} {name : String} (h : Lacks env name) (v : Value) :
    ¬ Binds env name v := by
  intro hbinds
  have hget := binds_iff.1 hbinds
  rw [lacks_iff.1 h] at hget
  cases hget

theorem resolves_resolve (env : Environment) (text : String) : Resolves env text (env.resolve text) := by
  rw [Environment.resolve]
  split
  · next v hv => exact .bound (binds_iff.2 hv)
  · next hnone =>
    have lacks := lacks_iff.2 hnone
    cases hread : Numeral.read text with
    | error limit => exact .digits lacks hread
    | ok found =>
      cases found with
      | some n => exact .integer lacks hread
      | none =>
        have word : IsFreeWord env text := ⟨lacks, hread⟩
        show Resolves env text (if _ then _ else _)
        by_cases htrue : text = trueWord ∨ text = elseWord
        · rw [if_pos htrue]
          exact .isTrue word htrue
        · rw [if_neg htrue]
          by_cases hfalse : text = falseWord
          · rw [if_pos hfalse]
            exact .isFalse word hfalse
          · rw [if_neg hfalse]
            split
            · next op hop => exact .primitive word (Primitive.named?_eq_some_iff.1 hop).symm
            · next hop =>
              refine .unbound word ?_ fun op hname => ?_
              · simp only [List.mem_cons, List.not_mem_nil, or_false]
                exact fun h => h.elim (fun h => htrue (.inl h)) fun h =>
                  h.elim (fun h => htrue (.inr h)) hfalse
              · rw [hname, Primitive.named?_name] at hop
                cases hop

theorem resolve_of_isFreeWord {env : Environment} {text : String} (h : IsFreeWord env text) :
    env.resolve text =
      if text = trueWord ∨ text = elseWord then .ok (.bool true)
      else if text = falseWord then .ok (.bool false)
      else match Primitive.named? text with
        | some op => .ok (.primitive op)
        | none => .error (.unbound text) := by
  rw [Environment.resolve, lacks_iff.1 h.lacks, h.notInteger]
  rfl

theorem Primitive.name_not_boolean (op : Primitive) :
    op.name ≠ trueWord ∧ op.name ≠ elseWord ∧ op.name ≠ falseWord := by
  cases op <;> decide

theorem Resolves.eq_resolve {env : Environment} {text : String} {r : Except Fault Value}
    (h : Resolves env text r) : env.resolve text = r := by
  cases h with
  | bound hv => rw [Environment.resolve, binds_iff.1 hv]
  | integer lacks hread =>
    rw [Environment.resolve, lacks_iff.1 lacks, hread]
    rfl
  | digits lacks hread =>
    rw [Environment.resolve, lacks_iff.1 lacks, hread]
    rfl
  | isTrue word htrue => rw [resolve_of_isFreeWord word, if_pos htrue]
  | isFalse word hfalse =>
    subst hfalse
    rw [resolve_of_isFreeWord word, if_neg (by decide), if_pos rfl]
  | @primitive op word hname =>
    subst hname
    obtain ⟨htrue, helse, hfalse⟩ := op.name_not_boolean
    rw [resolve_of_isFreeWord word, if_neg (by simp [htrue, helse]), if_neg hfalse,
      Primitive.named?_name]
  | unbound word notBoolean notPrimitive =>
    simp only [List.mem_cons, List.not_mem_nil, or_false, not_or] at notBoolean
    obtain ⟨htrue, helse, hfalse⟩ := notBoolean
    rw [resolve_of_isFreeWord word, if_neg (by simp [htrue, helse]), if_neg hfalse]
    cases hop : Primitive.named? text with
    | none => rfl
    | some op => exact absurd (Primitive.named?_eq_some_iff.1 hop).symm (notPrimitive op)

theorem lookup_of_binds {env : Environment} {name : String} {v : Value} (h : Binds env name v) :
    env.lookup name = .ok v := by
  rw [Environment.lookup, binds_iff.1 h]

theorem lookup_of_lacks {env : Environment} {name : String} (h : Lacks env name) :
    env.lookup name = .error (.unbound name) := by
  rw [Environment.lookup, lacks_iff.1 h]

end MiniLisp
