import Solgem.Lib.Words
import Solgem.Lib.Runs
import Solgem.Lib.Journal
import Solgem.Lib.MixedRadix
import Solgem.Lib.FirstWins
import Solgem.Lib.Growth
import Solgem.Lib.Outcome
import Solgem.Lib.Listing
import Solgem.Lib.Least
import Solgem.Lib.BitCount
import Solgem.Lib.Sweep
import Solgem.Lib.DefaultMap
import Solgem.Lib.Motion
import Solgem.Lib.Lines
import Solgem.Lib.VecArray
import Solgem.Arith
import Solgem.ExactArith
import Solgem.Draw
import Solgem.SimEvent
import Solgem.GEMHit
import Solgem.DigitizedPlane
import Solgem.CumulateStep
import Solgem.PlaneInvariant
import Solgem.PlaneRuns
import Solgem.PlaneHistory
import Solgem.DBManager
import Solgem.RocMap
import Solgem.MCTruth
import Solgem.StripTruth
import Solgem.PrimaryTrack
import Solgem.RocUnique
import Solgem.RocLookup
import Solgem.Clustering
import Solgem.ClusterLoop
import Solgem.ClusterPasses
import Solgem.CaloClusters
import Solgem.CaloPositions
import Solgem.Geometry
import Solgem.StripGeometry
import Solgem.StripPositions
import Solgem.BoxFrames
import Solgem.AvaModel
import Solgem.AdcRange
import Solgem.AvaStrips
import Solgem.ChargeWindows
import Solgem.AvaSamples
import Solgem.AvaClipping
import Solgem.IntegrationGrid
import Solgem.Digitization
import Solgem.TreeStrips
import Solgem.SampleArrays
import Solgem.DigitizerStep
import Solgem.Bench
import Solgem.TreeEvent
import Solgem.DigitizerShape
import Solgem.SampleBounds
import Solgem.ClusterIDs
import Solgem.CrossLedger
import Solgem.CrossReferences
import Solgem.FilledStrips
import Solgem.NoDigitize
import Solgem.StripTimes
import Solgem.HitOrder
import Solgem.EventOrder
import Solgem.Forgetting
import Solgem.GEMNumbering
import Solgem.GEMLookups
import Solgem.FindKey
import Solgem.TextStreams
import Solgem.LoadDB
import Solgem.IntValues
import Solgem.HitRecord
import Solgem.Geant4File
import Solgem.HitAttribution
import Solgem.SignalOrder
import Solgem.Polarimeters
import Solgem.ExitPoints
import Solgem.SimFile
import Solgem.FillBits
import Solgem.IndexChecks
import Solgem.TrackFit
import Solgem.ShowerCells
import Solgem.RescuedTrack
import Solgem.ShowerLoading
import Solgem.Lib.Pulse
import Solgem.PulseShapes
import Solgem.RecordedHits
import Solgem.Lib.Fueled
import Solgem.BackgroundFiles
import Solgem.DigitizationPass
import Solgem.PassEvents
import Solgem.PassJobs
import Solgem.ElasticKinematics
import Solgem.Optics
import Solgem.Lib.Appending
import Solgem.LoadEvent
import Solgem.DecodedEvents
import Solgem.PointDifferences
import Solgem.WrittenEvents
import Solgem.PassReplay
import Solgem.CaloChannels
import Solgem.BackTrackOrigin
import Solgem.CaloWords
import Solgem.Lib.Bins
import Solgem.VertexBins
import Solgem.DecodedTruth
