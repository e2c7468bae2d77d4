import EntityTables.Error
import EntityTables.Syntax.Compose

/-!
# Diagnostics

Errors in the form in which code reports them: an item that fails to compile with the message.
-/

namespace EntityTables

open EntityTables.Syntax

def compileError (message : String) : List Node :=
  words ":: core :: compile_error !" ++ [braces [stringLiteral message]]

def Error.compileError (error : Error) : List Node := EntityTables.compileError error.message

end EntityTables
