import QueryDialect.Json.Basic

namespace QueryDialect

structure Options where
  /-- Whether a conversion may take its input away from the caller instead of leaving it alone. -/
  exclusive : Bool := false
  /-- How many scopes and combinators may be nested. -/
  maxDepth : UInt64 := 64
  deriving DecidableEq

namespace Options

def limit (options : Options) : Nat :=
  options.maxDepth.toNat

def toJson (options : Options) : Json :=
  .object [("assume_exclusive_ownership", .bool options.exclusive),
    ("max_depth", .ofUInt64 options.maxDepth)]

end Options
end QueryDialect
