import JsxDialect.Lower.Walk

/-!
# Compiling a module

`Module.compile` lowers a module: the walk over its statements, and then the header on top of what
the walk leaves.
-/

namespace JsxDialect

/-- The result of compiling a module. -/
structure Compiled where
  module : Module
  diagnostics : List Diagnostic

/-- The state before the walk. -/
def Lowering.initial (m : Module) : Lowering :=
  ⟨Header.ofModule m, .empty, [], []⟩

/-- The module without the dialect, and what was reported. -/
def Module.compile (options : Options) (m : Module) : Compiled :=
  let setting : LoweringSetting := ⟨options, m.stmts.filterMap Stmt.defaultName⟩
  let (stmts, state) := ((Walk.stmts m.stmts).run setting).run (Lowering.initial m)
  ⟨state.header.finish { m with stmts }, state.diagnostics⟩

end JsxDialect
