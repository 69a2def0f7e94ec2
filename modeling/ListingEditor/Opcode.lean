namespace ListingEditor

/-- The release of the interpreter that introduced an opcode. Names that were removed later stay, so that
listings of old interpreters are recognized. -/
inductive Vintage where
  /-- Releases 1 and 2, with the opcodes that were gone before 2.7. -/
  | classic
  /-- Release 2.7: the opcodes that early releases of 3 share. -/
  | shared
  /-- Releases 3.0 to 3.10. -/
  | three
  /-- Release 3.11. -/
  | eleven
  /-- Release 3.12, with the pseudo-instructions a disassembler shows. -/
  | twelve
  /-- Release 3.13. -/
  | thirteen
  /-- Release 3.14. -/
  | fourteen
  /-- The forms that monitoring puts in place of others, from 3.12 on. -/
  | instrumented
  /-- The additions of PyPy. -/
  | pypy
  deriving DecidableEq, Repr

namespace Vintage

/-- Every vintage, oldest first. -/
def all : List Vintage :=
  [.classic, .shared, .three, .eleven, .twelve, .thirteen,
    .fourteen, .instrumented, .pypy]

/-- The names of the opcodes of a vintage. -/
def opcodes : Vintage → List String
  | .classic => [
      "STOP_CODE", "SET_LINENO", "RESERVE_FAST", "SET_FUNC_ARGS", "UNPACK_TUPLE", "UNPACK_LIST",
      "UNPACK_ARG", "UNPACK_VARARG", "BUILD_FUNCTION", "LOAD_LOCAL", "LOAD_GLOBALS",
      "RAISE_EXCEPTION", "BINARY_CALL", "UNARY_CALL", "JUMP_IF_FALSE", "JUMP_IF_TRUE", "ROT_FOUR",
      "DUP_TOPX", "UNARY_CONVERT", "BINARY_DIVIDE", "INPLACE_DIVIDE", "SLICE", "SLICE+0",
      "SLICE+1", "SLICE+2", "SLICE+3", "STORE_SLICE+0", "STORE_SLICE+1", "STORE_SLICE+2",
      "STORE_SLICE+3", "DELETE_SLICE+0", "DELETE_SLICE+1", "DELETE_SLICE+2", "DELETE_SLICE+3",
      "PRINT_ITEM", "PRINT_NEWLINE", "PRINT_ITEM_TO", "PRINT_NEWLINE_TO", "BREAK_LOOP",
      "CONTINUE_LOOP", "LOAD_LOCALS", "EXEC_STMT", "BUILD_CLASS", "SETUP_LOOP", "SETUP_EXCEPT",
      "MAKE_CLOSURE", "CALL_FUNCTION_VAR", "CALL_FUNCTION_VAR_KW", "STORE_MAP", "WITH_CLEANUP"]
  | .shared => [
      "POP_TOP", "ROT_TWO", "ROT_THREE", "DUP_TOP", "NOP", "UNARY_POSITIVE", "UNARY_NEGATIVE",
      "UNARY_NOT", "UNARY_INVERT", "BINARY_POWER", "BINARY_MULTIPLY", "BINARY_MODULO",
      "BINARY_ADD", "BINARY_SUBTRACT", "BINARY_SUBSCR", "BINARY_FLOOR_DIVIDE",
      "BINARY_TRUE_DIVIDE", "BINARY_LSHIFT", "BINARY_RSHIFT", "BINARY_AND", "BINARY_XOR",
      "BINARY_OR", "INPLACE_FLOOR_DIVIDE", "INPLACE_TRUE_DIVIDE", "INPLACE_ADD",
      "INPLACE_SUBTRACT", "INPLACE_MULTIPLY", "INPLACE_MODULO", "INPLACE_POWER", "INPLACE_LSHIFT",
      "INPLACE_RSHIFT", "INPLACE_AND", "INPLACE_XOR", "INPLACE_OR", "STORE_SUBSCR",
      "DELETE_SUBSCR", "GET_ITER", "PRINT_EXPR", "RETURN_VALUE", "IMPORT_STAR", "YIELD_VALUE",
      "POP_BLOCK", "END_FINALLY", "STORE_NAME", "DELETE_NAME", "UNPACK_SEQUENCE", "FOR_ITER",
      "LIST_APPEND", "STORE_ATTR", "DELETE_ATTR", "STORE_GLOBAL", "DELETE_GLOBAL", "LOAD_CONST",
      "LOAD_NAME", "BUILD_TUPLE", "BUILD_LIST", "BUILD_SET", "BUILD_MAP", "LOAD_ATTR",
      "COMPARE_OP", "IMPORT_NAME", "IMPORT_FROM", "JUMP_FORWARD", "JUMP_IF_FALSE_OR_POP",
      "JUMP_IF_TRUE_OR_POP", "JUMP_ABSOLUTE", "POP_JUMP_IF_FALSE", "POP_JUMP_IF_TRUE",
      "LOAD_GLOBAL", "SETUP_FINALLY", "LOAD_FAST", "STORE_FAST", "DELETE_FAST", "RAISE_VARARGS",
      "CALL_FUNCTION", "MAKE_FUNCTION", "BUILD_SLICE", "LOAD_CLOSURE", "LOAD_DEREF", "STORE_DEREF",
      "CALL_FUNCTION_KW", "SETUP_WITH", "EXTENDED_ARG", "SET_ADD", "MAP_ADD"]
  | .three => [
      "UNPACK_EX", "STORE_LOCALS", "LOAD_BUILD_CLASS", "POP_EXCEPT", "DELETE_DEREF", "DUP_TOP_TWO",
      "YIELD_FROM", "LOAD_CLASSDEREF", "WITH_CLEANUP_START", "WITH_CLEANUP_FINISH", "GET_AITER",
      "GET_ANEXT", "BEFORE_ASYNC_WITH", "GET_AWAITABLE", "GET_YIELD_FROM_ITER", "SETUP_ASYNC_WITH",
      "BINARY_MATRIX_MULTIPLY", "INPLACE_MATRIX_MULTIPLY", "BUILD_LIST_UNPACK", "BUILD_MAP_UNPACK",
      "BUILD_MAP_UNPACK_WITH_CALL", "BUILD_TUPLE_UNPACK", "BUILD_SET_UNPACK",
      "BUILD_TUPLE_UNPACK_WITH_CALL", "FORMAT_VALUE", "BUILD_CONST_KEY_MAP", "BUILD_STRING",
      "SETUP_ANNOTATIONS", "STORE_ANNOTATION", "CALL_FUNCTION_EX", "LOAD_METHOD", "CALL_METHOD",
      "BEGIN_FINALLY", "END_ASYNC_FOR", "CALL_FINALLY", "POP_FINALLY", "RERAISE",
      "WITH_EXCEPT_START", "LOAD_ASSERTION_ERROR", "LIST_TO_TUPLE", "IS_OP", "CONTAINS_OP",
      "JUMP_IF_NOT_EXC_MATCH", "LIST_EXTEND", "SET_UPDATE", "DICT_MERGE", "DICT_UPDATE",
      "GEN_START", "MATCH_CLASS", "MATCH_MAPPING", "MATCH_SEQUENCE", "MATCH_KEYS",
      "COPY_DICT_WITHOUT_KEYS", "GET_LEN", "ROT_N"]
  | .eleven => [
      "CACHE", "PUSH_NULL", "PRECALL", "CALL", "KW_NAMES", "RESUME", "RETURN_GENERATOR", "SEND",
      "COPY", "SWAP", "BINARY_OP", "PUSH_EXC_INFO", "CHECK_EXC_MATCH", "CHECK_EG_MATCH",
      "PREP_RERAISE_STAR", "BEFORE_WITH", "ASYNC_GEN_WRAP", "JUMP_BACKWARD",
      "JUMP_BACKWARD_NO_INTERRUPT", "POP_JUMP_FORWARD_IF_FALSE", "POP_JUMP_FORWARD_IF_TRUE",
      "POP_JUMP_BACKWARD_IF_FALSE", "POP_JUMP_BACKWARD_IF_TRUE", "POP_JUMP_FORWARD_IF_NONE",
      "POP_JUMP_FORWARD_IF_NOT_NONE", "POP_JUMP_BACKWARD_IF_NONE", "POP_JUMP_BACKWARD_IF_NOT_NONE",
      "MAKE_CELL", "COPY_FREE_VARS"]
  | .twelve => [
      "END_FOR", "END_SEND", "INTERPRETER_EXIT", "BINARY_SLICE", "STORE_SLICE", "CLEANUP_THROW",
      "LOAD_FROM_DICT_OR_GLOBALS", "LOAD_FROM_DICT_OR_DEREF", "LOAD_SUPER_ATTR", "LOAD_FAST_CHECK",
      "LOAD_FAST_AND_CLEAR", "RETURN_CONST", "CALL_INTRINSIC_1", "CALL_INTRINSIC_2",
      "POP_JUMP_IF_NONE", "POP_JUMP_IF_NOT_NONE", "JUMP", "JUMP_NO_INTERRUPT", "SETUP_CLEANUP",
      "LOAD_SUPER_METHOD", "LOAD_ZERO_SUPER_METHOD", "LOAD_ZERO_SUPER_ATTR",
      "STORE_FAST_MAYBE_NULL"]
  | .thirteen => [
      "TO_BOOL", "CALL_KW", "CONVERT_VALUE", "FORMAT_SIMPLE", "FORMAT_WITH_SPEC",
      "SET_FUNCTION_ATTRIBUTE", "LOAD_FAST_LOAD_FAST", "STORE_FAST_LOAD_FAST",
      "STORE_FAST_STORE_FAST", "EXIT_INIT_CHECK", "ENTER_EXECUTOR", "RESERVED"]
  | .fourteen => [
      "LOAD_SMALL_INT", "LOAD_SPECIAL", "LOAD_COMMON_CONSTANT", "POP_ITER", "NOT_TAKEN",
      "LOAD_FAST_BORROW", "LOAD_FAST_BORROW_LOAD_FAST_BORROW", "BUILD_TEMPLATE",
      "BUILD_INTERPOLATION", "ANNOTATIONS_PLACEHOLDER"]
  | .instrumented => [
      "INSTRUMENTED_RESUME", "INSTRUMENTED_END_FOR", "INSTRUMENTED_END_SEND",
      "INSTRUMENTED_RETURN_VALUE", "INSTRUMENTED_RETURN_CONST", "INSTRUMENTED_YIELD_VALUE",
      "INSTRUMENTED_LOAD_SUPER_ATTR", "INSTRUMENTED_FOR_ITER", "INSTRUMENTED_CALL",
      "INSTRUMENTED_CALL_KW", "INSTRUMENTED_CALL_FUNCTION_EX", "INSTRUMENTED_INSTRUCTION",
      "INSTRUMENTED_JUMP_FORWARD", "INSTRUMENTED_JUMP_BACKWARD", "INSTRUMENTED_POP_JUMP_IF_TRUE",
      "INSTRUMENTED_POP_JUMP_IF_FALSE", "INSTRUMENTED_POP_JUMP_IF_NONE",
      "INSTRUMENTED_POP_JUMP_IF_NOT_NONE", "INSTRUMENTED_LINE", "INSTRUMENTED_NOT_TAKEN",
      "INSTRUMENTED_POP_ITER", "INSTRUMENTED_END_ASYNC_FOR"]
  | .pypy => [
      "LOOKUP_METHOD", "BUILD_LIST_FROM_ARG", "JUMP_IF_NOT_DEBUG", "LOAD_REVDB_VAR"]

end Vintage

namespace Opcode

/-- The names of all opcodes, as their vintages list them. -/
def names : List String := Vintage.all.flatMap Vintage.opcodes

/-- The names of all opcodes, each once, in alphabetical order. -/
def sortedNames : List String := (names.mergeSort fun a b => !decide (b < a)).eraseDups

/-- Whether a word names an opcode. The slice opcodes of old carry a suffix behind a plus sign: the word
is looked up with it first, then without. -/
def isMnemonic (word : List Char) : Bool :=
  names.contains (String.ofList word) ||
    ('+' ∈ word && names.contains (String.ofList (word.takeWhile (· != '+'))))

end Opcode

end ListingEditor
