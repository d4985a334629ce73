import SingleTable.Form.Request
import SingleTable.Store.Call

/-!
# The form of calls

A call is written with its name and its request, or the list of its requests.
-/

namespace SingleTable.Form

def ofCallInput : Call → Document
  | .get r => ofGet r
  | .put r => ofPut r
  | .update r => ofUpdate r
  | .delete r => ofDelete r
  | .query r => ofQuery r
  | .scan r => ofScan r
  | .batchWrite requests => array ofBatchWrite requests
  | .batchRead keys => array ofKeyRef keys
  | .transactRead requests => array ofGet requests
  | .transactWrite operations => array ofOperation operations

def ofCall (call : Call) : Document :=
  object [("call", .string call.name), ("input", ofCallInput call)]

end SingleTable.Form
