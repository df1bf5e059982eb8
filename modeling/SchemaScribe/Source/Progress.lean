/-!
Facts about outcomes and lists from which the readers of tokens are shown to make progress: whatever they accept,
the text behind it is shorter than the text they were given.
-/

namespace SchemaScribe.Source

theorem length_dropWhile_le (p : Char → Bool) (chars : List Char) : (chars.dropWhile p).length ≤ chars.length :=
  (List.dropWhile_suffix p).length_le

theorem map_fst_eq_ok {read : Except ε (α × σ)} {f : α → β} {value : β} {rest : σ}
    (mapped : read.map (Prod.map f id) = .ok (value, rest)) : ∃ inner, read = .ok (inner, rest) := by
  cases read with
  | error error => cases mapped
  | ok result =>
    obtain ⟨_, rfl⟩ := Prod.mk.inj (Except.ok.inj mapped)
    exact ⟨result.1, rfl⟩

theorem map_eq_ok {action : Except ε α} {f : α → β} {result : β} (done : action.map f = .ok result) :
    ∃ value, action = .ok value ∧ f value = result := by
  cases action with
  | error error => cases done
  | ok value => exact ⟨value, rfl, Except.ok.inj done⟩

theorem bind_eq_ok {action : Except ε α} {next : α → Except ε β} {result : β}
    (done : (action >>= next) = .ok result) : ∃ value, action = .ok value ∧ next value = .ok result := by
  cases action with
  | error error => cases done
  | ok value => exact ⟨value, rfl, done⟩

end SchemaScribe.Source
