import SwarmBase.Pallet.Swarm

/-!
# The runtime's instance of the swarm pallet

`impl swarm_robot_pallet::Config for Runtime`.
-/

namespace SwarmBase

/-- A point of the canvas, as the pallet stores it. -/
structure Coordinate where
  x : UInt32
  y : UInt32
  deriving DecidableEq

/-- The parachain runtime: account ids are 32 bytes, at most 64 commands are queued. -/
abbrev Runtime : Config where
  AccountId := BitVec 256
  Location := Coordinate
  RobotId := UInt32
  TaskDefinition := UInt32
  MaxGlobalCommands := 64

end SwarmBase
