import Apoptosis.L1Encoding.ComponentSave
import Apoptosis.L1Encoding.FrameCodec
import Apoptosis.L1Encoding.InventoryPackets
import Apoptosis.L1Encoding.LoginPackets
import Apoptosis.L1Encoding.NbtReread
import Apoptosis.L1Encoding.PayloadFrame
import Apoptosis.L2Access.AuthBudget
import Apoptosis.L2Access.BanDates
import Apoptosis.L2Access.Pardon
import Apoptosis.L2Command.ExecuteRun
import Apoptosis.L2Command.FillWrites
import Apoptosis.L2Data.Advancements
import Apoptosis.L2Data.FunctionCalls
import Apoptosis.L2Data.LootDocumented
import Apoptosis.L2Data.LootSkipped
import Apoptosis.L2Data.TagLimit
import Apoptosis.L2Entities.Experience
import Apoptosis.L2Entities.GroundItems
import Apoptosis.L2Entities.HungerRuns
import Apoptosis.L2Entities.Orbs
import Apoptosis.L2Entities.PathOptimal
import Apoptosis.L2Entities.SavedEntities
import Apoptosis.L2Fluid.Spreading
import Apoptosis.L2Items.MenuRefused
import Apoptosis.L2Items.Shaped
import Apoptosis.L2Items.Smelting
import Apoptosis.L2Network.ConnectionEvents
import Apoptosis.L2Network.ConnectionGate
import Apoptosis.L2Network.ConnectionLogin
import Apoptosis.L2Network.ConnectionPeer
import Apoptosis.L2Players.PlayerListRuns
import Apoptosis.L2Players.Sleep
import Apoptosis.L2Redstone.Dust
import Apoptosis.L2Redstone.QueueRuns
import Apoptosis.L2Registry.BlockTable
import Apoptosis.L2Storage.ChunkReads
import Apoptosis.L2Storage.RegionMap
import Apoptosis.L2World.ChunkFrame
import Apoptosis.L2World.ChunkSchema
import Apoptosis.L2World.LightCache
import Apoptosis.L2World.LightSpread
import Apoptosis.L2World.MovementSafety
import Apoptosis.L2World.Palettes
import Apoptosis.L2World.RayHits
import Apoptosis.L2Worldgen.CarverCount
import Apoptosis.L2Worldgen.LeafDecay
import Apoptosis.L2Worldgen.OakForest
import Apoptosis.L2Worldgen.Placement
import Apoptosis.L2Worldgen.SaplingGrowth
import Apoptosis.L2Worldgen.StructureSelection
import Apoptosis.L3Game.StreamingRuns
