/-!
# Tables

Finite maps that keep the order in which their keys were first written.

* `get?` — the value under a key; the view through which tables are compared.
* `insert` — a value written in place when the key is there, and at the end otherwise.
* `erase` — a key removed.
-/

namespace TemplateAssist

/-- A finite map, as its entries in the order of their first writing. -/
abbrev Table (κ α : Type) := List (κ × α)

namespace Table

variable {κ α : Type} [DecidableEq κ]

def get? : Table κ α → κ → Option α
  | [], _ => none
  | (k, v) :: rest, key => if k = key then some v else get? rest key

def has (t : Table κ α) (key : κ) : Bool :=
  (get? t key).isSome

def insert : Table κ α → κ → α → Table κ α
  | [], key, value => [(key, value)]
  | (k, v) :: rest, key, value =>
    if k = key then (key, value) :: rest else (k, v) :: insert rest key value

def erase (t : Table κ α) (key : κ) : Table κ α :=
  t.filter fun e => e.1 ≠ key

def keys (t : Table κ α) : List κ :=
  t.map (·.1)

def values (t : Table κ α) : List α :=
  t.map (·.2)

@[simp] theorem get?_nil (key : κ) : get? ([] : Table κ α) key = none := rfl

theorem get?_insert (t : Table κ α) (key other : κ) (value : α) :
    get? (insert t key value) other = if key = other then some value else get? t other := by
  induction t with
  | nil => simp [insert, get?]
  | cons e rest ih =>
    obtain ⟨k, v⟩ := e
    by_cases hk : k = key
    · subst hk
      by_cases ho : k = other <;> simp [insert, get?, ho]
    · by_cases ho : k = other
      · subst ho
        simp [insert, get?, hk, Ne.symm hk]
      · simp [insert, get?, hk, ho, ih]

theorem get?_erase (t : Table κ α) (key other : κ) :
    get? (erase t key) other = if key = other then none else get? t other := by
  induction t with
  | nil => simp [erase]
  | cons e rest ih =>
    obtain ⟨k, v⟩ := e
    have ih' : get? (rest.filter fun e => e.1 ≠ key) other =
        if key = other then none else get? rest other := ih
    by_cases hk : k = key
    · subst hk
      by_cases ho : k = other
      · simpa [erase, ho] using ih'
      · simpa [erase, get?, ho] using ih'
    · by_cases ho : k = other
      · subst ho
        simp [erase, get?, hk, Ne.symm hk]
      · simpa [erase, get?, hk, ho] using ih'

end Table

end TemplateAssist
