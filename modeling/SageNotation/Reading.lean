/-!
Reading from the front of a list.

A `Reading` is a value together with the part of the input that is left, and the
fact that this part is an end part of the input.  Readers built from it are
functions of the input ahead of them and nothing else, and what they leave is
never longer than what they were given.
-/

namespace SageNotation

structure Reading {τ : Type} (α : Type) (input : List τ) where
  value : α
  rest : List τ
  suffix : rest <:+ input

namespace Reading

variable {τ α β : Type} {input larger : List τ}

def nothing (value : α) : Reading α input :=
  { value := value, rest := input, suffix := List.suffix_rfl }

def map (change : α → β) (reading : Reading α input) : Reading β input :=
  { reading with value := change reading.value }

/-- The same reading, seen from an earlier place. -/
def widen (reading : Reading α input) (earlier : input <:+ larger) : Reading α larger :=
  { value := reading.value
    rest := reading.rest
    suffix := reading.suffix.trans earlier }

@[simp] theorem value_map (change : α → β) (reading : Reading α input) :
    (reading.map change).value = change reading.value := rfl

@[simp] theorem rest_map (change : α → β) (reading : Reading α input) :
    (reading.map change).rest = reading.rest := rfl

@[simp] theorem value_widen (reading : Reading α input) (earlier : input <:+ larger) :
    (reading.widen earlier).value = reading.value := rfl

@[simp] theorem rest_widen (reading : Reading α input) (earlier : input <:+ larger) :
    (reading.widen earlier).rest = reading.rest := rfl

theorem length_le (reading : Reading α input) : reading.rest.length ≤ input.length :=
  reading.suffix.length_le

end Reading

theorem suffix_cons_of_suffix {τ : Type} {rest input : List τ} (first : τ)
    (earlier : rest <:+ input) : rest <:+ first :: input :=
  earlier.trans (List.suffix_cons first input)

end SageNotation
