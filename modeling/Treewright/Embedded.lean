/-!
# The built-in grammar

The document of the grammar that is used when no other one is named: the syntax tree
of a small interpreter, with expressions and statements.
-/

namespace Treewright

/-- The built-in grammar document, line by line. -/
def embeddedLines : List String :=
  [ "# Syntax tree of the ijo tree-walking interpreter.",
    "#",
    "# Each node row is `Class : Type field, Type field, ...`. The generated type",
    "# is `<Class><Family>` and its visitor method `visit_<class>_<family>`.",
    "",
    "name = \"ijo\"",
    "result = \"Result<Value>\"",
    "uses = [\"crate::error::Result\", \"crate::token::Token\", \"crate::value::Value\"]",
    "derives = [\"Debug\", \"Clone\", \"PartialEq\"]",
    "heap_containers = [\"List\"]",
    "",
    "[ownership]",
    "borrowed = [\"Token\"]",
    "defaulted = [\"String\"]",
    "",
    "[types]",
    "List = \"Vec\"",
    "Variant = \"Value\"",
    "",
    "[[family]]",
    "name = \"Expr\"",
    "nodes = [",
    "    \"Binary     : Expr left, Token op, Expr right, String currentStr\",",
    "    \"Call       : Expr callee, Token paren, List<Expr> arguments\",",
    "    \"Grouping   : Expr expression\",",
    "    \"Literal    : Variant value\",",
    "    \"Unary      : Token op, Expr right\",",
    "    \"Logical    : Expr left, Token op, Expr right\",",
    "    \"Variable   : Token name\",",
    "    \"Assignment : Token name, Expr value\",",
    "]",
    "",
    "[[family]]",
    "name = \"Stmt\"",
    "depends_on = \"Expr\"",
    "nodes = [",
    "    \"Block      : List<Stmt> statements\",",
    "    \"Expression : Expr expression\",",
    "    \"If         : Expr condition, Stmt thenBranch, Option<Stmt> elseBranch\",",
    "    \"While      : Expr condition, Stmt body\",",
    "    \"Function   : Token name, List<Token> parameters, Stmt body\",",
    "    \"Var        : Token mutability, Token name, Option<Expr> initializer\",",
    "    \"Return     : Token keyword, Option<Expr> value\",",
    "]"]

def embeddedDocument : String :=
  "\n".intercalate embeddedLines ++ "\n"

end Treewright
