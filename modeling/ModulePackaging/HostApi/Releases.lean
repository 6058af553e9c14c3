import ModulePackaging.HostApi.Table

/-!
# The releases of the host

The built-in table of host releases. New releases go to its end.
-/

namespace ModulePackaging.Releases

/-- A release that is forward-compatible and is not marked as the oldest one to support. -/
def plain (version : Text) (added removed : List Text) : MatrixRow :=
  ⟨version, added, removed, true, false⟩

/-- A release that modules for versions above it cannot be built with. -/
def closed (version : Text) (added removed : List Text) : MatrixRow :=
  ⟨version, added, removed, false, false⟩

/-- All releases, the oldest first. -/
def rows : List MatrixRow := [
  { plain "6.0.163" ["attr_value_api", "conf_object_api", "haps", "python_bindings"] [] with
    minSupported := true },
  plain "6.0.166" ["breakpoint_query_v2"] [],
  plain "6.0.169" ["cycle_event_api"] [],
  plain "6.0.172" ["transaction_api"] [],
  closed "6.0.173" ["save_snapshot", "restore_snapshot_by_index"] [],
  plain "6.0.174" ["save_snapshot_returns_bool"] ["restore_snapshot_by_index"],
  plain "6.0.177" ["map_target_api"] [],
  plain "6.0.180" ["snapshot_error_type", "take_snapshot"] ["save_snapshot_returns_bool"],
  plain "6.0.185" ["restore_snapshot_by_name"] [],
  plain "6.0.189" ["transaction_wait_api"] [],
  plain "6.0.191" [] [],
  closed "7.0.0" ["python_separate_package"] ["save_snapshot", "python_bindings"],
  plain "7.28.0" ["python_limited_api"] [],
  plain "7.38.0" ["device_api_v2"] [],
  plain "7.57.0" [] []]

/-- The matrix of all releases. -/
def matrix : Matrix :=
  match MatrixRow.matrix rows with
  | .ok m => m
  | .error _ => .empty

end ModulePackaging.Releases
