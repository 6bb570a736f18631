import GmshopEdge.Lib.Table

/-! # Tables whose constraints are evaluated -/

namespace Sql

variable {ρ : Type} [Row ρ]

/-- A concrete table; its constraints evaluate to true where it is written down. -/
def Table.ok (rows : List ρ) (h : decide (rows.Pairwise (fun a b => Row.clash a b = false) ∧
    ∀ r ∈ rows, Row.valid r = true) = true := by exact Eq.refl true) : Table ρ :=
  .of rows (of_decide_eq_true h)

end Sql
