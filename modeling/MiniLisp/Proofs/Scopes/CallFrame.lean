import Mathlib.Data.List.Induction
import MiniLisp.Environment

/-!
The scope of a call. Its frame has each parameter once, bound to its argument, and a parameter that occurs
several times is bound to the last of its arguments. `slot` says which argument that is.
-/

namespace MiniLisp

/-- Which argument a name means in the frame of a call, counted from the last one. -/
def slot (params : List String) (name : String) : Option Nat :=
  params.reverse.idxOf? name

theorem slot_eq_none_iff {params : List String} {name : String} :
    slot params name = none ↔ name ∉ params := by
  rw [slot, List.idxOf?_eq_none_iff, List.mem_reverse]

theorem slot_lt {params : List String} {name : String} {i : Nat} (h : slot params name = some i) :
    i < params.length := by
  obtain ⟨hi, -⟩ := List.idxOf?_eq_some_iff.1 h
  rwa [List.length_reverse] at hi

theorem Frame.get?_eq_none_iff {frame : Frame} {name : String} :
    frame.get? name = none ↔ name ∉ frame.names := by
  induction frame with
  | nil => simp [Frame.names]
  | cons binding rest ih =>
    rw [Frame.get?_cons]
    by_cases hname : name = binding.1
    · simp [Frame.names, hname]
    · rw [if_neg hname, ih]
      simp [Frame.names, hname]

/-- In a frame of bindings a name means its last value. -/
theorem Frame.get?_ofBindings (bindings : List (String × Value)) (name : String) :
    (Frame.ofBindings bindings).get? name = bindings.reverse.lookup name := by
  -- Bindings are inserted one by one, so the claim is about what comes after any frame so far.
  suffices h : ∀ frame : Frame,
      Frame.get? (bindings.foldl (fun frame b => frame.insert b.1 b.2) frame) name =
        (bindings.reverse.lookup name).or (frame.get? name) by
    exact (h []).trans (by rw [Frame.get?_nil, Option.or_none])
  induction bindings with
  | nil => exact fun frame => (Option.none_or).symm
  | cons b bindings ih =>
    intro frame
    obtain ⟨n, v⟩ := b
    rw [List.foldl_cons, ih, List.reverse_cons, List.lookup_append, Option.or_assoc,
      Frame.get?_insert, List.lookup_cons]
    by_cases hname : name = n
    · rw [if_pos hname, beq_iff_eq.2 hname, Option.some_or]
    · rw [if_neg hname, beq_eq_false_iff_ne.2 hname, List.lookup_nil, Option.none_or]

/-- A name that occurs again at the end is no new name. -/
theorem eraseDups_concat (names : List String) (name : String) :
    (names ++ [name]).eraseDups =
      if name ∈ names then names.eraseDups else names.eraseDups ++ [name] := by
  rw [List.eraseDups_append]
  by_cases h : name ∈ names
  · simp [h, List.removeAll]
  · simp [h, List.removeAll, List.eraseDups_cons]

/-- The frame of several bindings has each name once, where it first occurs. -/
theorem Frame.names_ofBindings (bindings : List (String × Value)) :
    (Frame.ofBindings bindings).names = (bindings.map Prod.fst).eraseDups := by
  -- The last binding is inserted last, and adds its name only if no binding before it had it.
  induction bindings using List.reverseRecOn with
  | nil => rfl
  | append_singleton bindings b ih =>
    have hlast : Frame.ofBindings (bindings ++ [b]) =
        (Frame.ofBindings bindings).insert b.1 b.2 := by
      rw [Frame.ofBindings, List.foldl_append]
      rfl
    rw [hlast, Frame.names_insert, ih, List.map_append, List.map_singleton, eraseDups_concat]
    exact ite_congr (propext List.mem_eraseDups) (fun _ => rfl) fun _ => rfl

theorem Frame.nodup_names_ofBindings (bindings : List (String × Value)) :
    (Frame.ofBindings bindings).names.Nodup := by
  -- Bindings are inserted one by one, in a frame that has each name once so far.
  suffices h : ∀ frame : Frame, frame.names.Nodup →
      (Frame.names (bindings.foldl (fun frame b => frame.insert b.1 b.2) frame)).Nodup from
    h [] List.nodup_nil
  induction bindings with
  | nil => exact fun _ h => h
  | cons b bindings ih => exact fun frame h => ih _ (Frame.nodup_names_insert h b.1 b.2)

/-- The frame of a call has each parameter once. -/
theorem Frame.names_ofBindings_zip {params : List String} {args : List Value}
    (count : args.length = params.length) :
    (Frame.ofBindings (params.zip args)).names = params.eraseDups := by
  have hnames : (params.zip args).map Prod.fst = params := List.map_fst_zip (Nat.le_of_eq count.symm)
  rw [names_ofBindings, hnames]

theorem lookup_zip (names : List String) (values : List Value) (name : String) :
    (names.zip values).lookup name = (names.idxOf? name).bind (values[·]?) := by
  induction names generalizing values with
  | nil => rfl
  | cons n names ih =>
    cases values with
    | nil => rw [List.zip_nil_right, List.lookup_nil]; simp
    | cons v values =>
      rw [List.zip_cons_cons, List.lookup_cons, List.idxOf?_cons]
      by_cases hname : name = n
      · subst hname
        simp
      · have hother : ¬ n = name := fun h => hname h.symm
        rw [beq_eq_false_iff_ne.2 hname, if_neg (by simp [hother]), ih, Option.bind_map]
        rfl

/-- In the scope of a call a name means its argument, or what it means in the scope around. -/
theorem Environment.get?_extend_zip (env : Environment) {params : List String} {args : List Value}
    (count : args.length = params.length) (name : String) :
    (env.extend (params.zip args)).get? name =
      match slot params name with
      | some i => args.reverse[i]?
      | none => env.get? name := by
  -- The last binding of a name counts, so both lists are searched from their ends.
  have hreverse : (params.zip args).reverse = params.reverse.zip args.reverse :=
    List.reverse_zipWith count.symm
  rw [Environment.extend, Environment.get?_cons, Frame.get?_ofBindings, hreverse, lookup_zip, ← slot]
  cases hslot : slot params name with
  | none => rw [Option.bind_none, Option.none_or]
  | some i =>
    have hi : i < args.reverse.length := by
      rw [List.length_reverse, count]
      exact slot_lt hslot
    show (args.reverse[i]?).or (env.get? name) = args.reverse[i]?
    rw [List.getElem?_eq_getElem hi, Option.some_or]

/-- The names of each frame, innermost first. -/
def Environment.frameNames (env : Environment) : List (List String) :=
  env.map Frame.names

theorem Environment.frameNames_extend_zip (env : Environment) {params : List String}
    {args : List Value} (count : args.length = params.length) :
    (env.extend (params.zip args)).frameNames = params.eraseDups :: env.frameNames := by
  rw [frameNames, extend, List.map_cons, Frame.names_ofBindings_zip count, frameNames]

end MiniLisp
