import DocIndex.Builtin.Basic

/-!
# The list of builtins

The builtin functions that come with the library, as the language reference describes them.
-/

namespace DocIndex.Builtin

/-- The builtin functions that are known without a list of one's own. -/
def reference : List Builtin := [
  ⟨"@addWithOverflow",
    "@addWithOverflow(a: anytype, b: anytype) struct \x7b @TypeOf(a, b), u1 \x7d",
    "Performs a + b and returns a tuple with the result and a possible overflow " ++
      "bit."⟩,
  ⟨"@subWithOverflow",
    "@subWithOverflow(a: anytype, b: anytype) struct \x7b @TypeOf(a, b), u1 \x7d",
    "Performs a - b and returns a tuple with the result and a possible overflow " ++
      "bit."⟩,
  ⟨"@mulWithOverflow",
    "@mulWithOverflow(a: anytype, b: anytype) struct \x7b @TypeOf(a, b), u1 \x7d",
    "Performs a * b and returns a tuple with the result and a possible overflow " ++
      "bit."⟩,
  ⟨"@shlWithOverflow",
    "@shlWithOverflow(a: anytype, shift_amt: Log2T) struct \x7b @TypeOf(a), u1 \x7d",
    "Performs a << b and returns a tuple with the result and a possible overflow " ++
      "bit."⟩,
  ⟨"@shlExact",
    "@shlExact(value: T, shift_amt: Log2T) T",
    "Performs the left shift operation. It is undefined behavior if any 1 bits are " ++
      "shifted out."⟩,
  ⟨"@shrExact",
    "@shrExact(value: T, shift_amt: Log2T) T",
    "Performs the right shift operation. It is undefined behavior if any 1 bits are " ++
      "shifted out."⟩,
  ⟨"@divExact",
    "@divExact(numerator: T, denominator: T) T",
    "Exact division. Caller guarantees denominator != 0 and the division has no " ++
      "remainder."⟩,
  ⟨"@divFloor",
    "@divFloor(numerator: T, denominator: T) T",
    "Floored division. Rounds toward negative infinity."⟩,
  ⟨"@divTrunc",
    "@divTrunc(numerator: T, denominator: T) T",
    "Truncated division. Rounds toward zero."⟩,
  ⟨"@mod",
    "@mod(numerator: T, denominator: T) T",
    "Modulus division. For unsigned integers this is the same as numerator % " ++
      "denominator."⟩,
  ⟨"@rem",
    "@rem(numerator: T, denominator: T) T",
    "Remainder division. For unsigned integers this is the same as numerator % " ++
      "denominator."⟩,
  ⟨"@intCast",
    "@intCast(int: anytype) anytype",
    "Converts an integer to another integer while keeping the same numerical value. " ++
      "Out of range values are safety-checked illegal behavior."⟩,
  ⟨"@truncate",
    "@truncate(integer: anytype) anytype",
    "Truncates bits from an integer type, resulting in a smaller or same-sized " ++
      "integer type."⟩,
  ⟨"@floatCast",
    "@floatCast(value: anytype) anytype",
    "Convert from one float type to another. This cast is safe, but may cause the " ++
      "numeric value to lose precision."⟩,
  ⟨"@intFromFloat",
    "@intFromFloat(float: anytype) anytype",
    "Converts the integer part of a floating point number to the inferred result " ++
      "type."⟩,
  ⟨"@floatFromInt",
    "@floatFromInt(int: anytype) anytype",
    "Converts an integer to the closest floating point representation."⟩,
  ⟨"@intFromEnum",
    "@intFromEnum(enum_or_tagged_union: anytype) anytype",
    "Converts an enumeration value into its integer tag type."⟩,
  ⟨"@enumFromInt",
    "@enumFromInt(integer: anytype) anytype",
    "Converts an integer into an enum value."⟩,
  ⟨"@intFromPtr",
    "@intFromPtr(value: anytype) usize",
    "Converts value to a usize which is the address of the pointer."⟩,
  ⟨"@ptrFromInt",
    "@ptrFromInt(address: usize) anytype",
    "Converts an integer to a pointer."⟩,
  ⟨"@ptrCast",
    "@ptrCast(value: anytype) anytype",
    "Converts a pointer of one type to a pointer of another type."⟩,
  ⟨"@alignCast",
    "@alignCast(ptr: anytype) anytype",
    "Changes the alignment of a pointer, with a safety check that the address is " ++
      "aligned."⟩,
  ⟨"@bitCast",
    "@bitCast(value: anytype) anytype",
    "Converts a value of one type to another type with the same size, keeping the " ++
      "bits."⟩,
  ⟨"@sizeOf",
    "@sizeOf(comptime T: type) comptime_int",
    "Returns the number of bytes it takes to store T in memory."⟩,
  ⟨"@alignOf",
    "@alignOf(comptime T: type) comptime_int",
    "Returns the number of bytes that this type should be aligned to."⟩,
  ⟨"@TypeOf",
    "@TypeOf(...) type",
    "Returns the type which is the result of peer type resolution of its arguments."⟩,
  ⟨"@typeInfo",
    "@typeInfo(comptime T: type) std.builtin.Type",
    "Provides type reflection."⟩,
  ⟨"@typeName",
    "@typeName(T: type) *const [N:0]u8",
    "Returns the string representation of a type."⟩,
  ⟨"@field",
    "@field(lhs: anytype, comptime field_name: []const u8) (field)",
    "Performs field access by a compile-time string."⟩,
  ⟨"@hasField",
    "@hasField(comptime Container: type, comptime name: []const u8) bool",
    "Returns whether the field name of a struct, union, or enum exists."⟩,
  ⟨"@hasDecl",
    "@hasDecl(comptime Container: type, comptime name: []const u8) bool",
    "Returns whether or not a container has a declaration matching name."⟩,
  ⟨"@import",
    "@import(comptime target: []const u8) anytype",
    "Finds a zig file corresponding to target and adds it to the build if it is not " ++
      "already added."⟩,
  ⟨"@embedFile",
    "@embedFile(comptime path: []const u8) *const [N:0]u8",
    "Returns a compile time constant pointer to null-terminated, fixed-size array " ++
      "with the contents of the file."⟩,
  ⟨"@compileError",
    "@compileError(comptime msg: []const u8) noreturn",
    "This function, when semantically analyzed, causes a compile error with the " ++
      "message msg."⟩,
  ⟨"@panic",
    "@panic(message: []const u8) noreturn",
    "Invokes the panic handler function."⟩,
  ⟨"@memcpy",
    "@memcpy(noalias dest, noalias source) void",
    "Copies bytes from one region of memory to another. The regions must not " ++
      "overlap."⟩,
  ⟨"@memset",
    "@memset(dest, elem) void",
    "Sets all the elements of a memory region to elem."⟩,
  ⟨"@min",
    "@min(...) T",
    "Returns the minimum value of the provided numeric arguments."⟩,
  ⟨"@max",
    "@max(...) T",
    "Returns the maximum value of the provided numeric arguments."⟩,
  ⟨"@sqrt",
    "@sqrt(value: anytype) @TypeOf(value)",
    "Performs the square root of a floating point number."⟩,
  ⟨"@abs",
    "@abs(value: anytype) anytype",
    "Returns the absolute value of an integer or a floating point number."⟩,
  ⟨"@This",
    "@This() type",
    "Returns the innermost struct, enum, or union that this function call is " ++
      "inside."⟩,
  ⟨"@errorName",
    "@errorName(err: anyerror) [:0]const u8",
    "Returns the string representation of an error."⟩,
  ⟨"@setRuntimeSafety",
    "@setRuntimeSafety(comptime safety_on: bool) void",
    "Sets whether runtime safety checks are enabled for the scope that contains the " ++
      "function call."⟩]

end DocIndex.Builtin
