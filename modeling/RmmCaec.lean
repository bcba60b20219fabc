import RmmCaec.Descriptor
import RmmCaec.EntryKind
import RmmCaec.Attachment
import RmmCaec.State
import RmmCaec.RealmHandlers
import RmmCaec.RttHandlers
import RmmCaec.CsmHandlers
import RmmCaec.System
import RmmCaec.Outcome
import RmmCaec.RadixForest
import RmmCaec.Tables
import RmmCaec.Acceptance
import RmmCaec.AptEffects
import RmmCaec.AptInvariants
import RmmCaec.FoldRoundTrip
import RmmCaec.RegionIds
import RmmCaec.StoredEntries
import RmmCaec.DataMapped
import RmmCaec.Lifecycle
import RmmCaec.Measurement
import RmmCaec.MeasurementLog
import RmmCaec.Mirroring
import RmmCaec.PageWrites
import RmmCaec.Psci
import RmmCaec.PsciLaws
import RmmCaec.Regions
import RmmCaec.Simd
import RmmCaec.SimdContexts
import RmmCaec.SimdLaws
import RmmCaec.Slots
import RmmCaec.TokenLanding
import RmmCaec.Draws
import RmmCaec.RealmTags
import RmmCaec.AptCreation
import RmmCaec.Exactness
import RmmCaec.PageReturns
import RmmCaec.Totality
import RmmCaec.Reserving
import RmmCaec.LockTrace
import RmmCaec.Locking
import RmmCaec.RecCreation
import RmmCaec.AttachLocks
import RmmCaec.EditedPages
import RmmCaec.AttachRegion
import RmmCaec.FirstMatch
import RmmCaec.AptCleaning
import RmmCaec.RipasRequests
import RmmCaec.RecRun
import RmmCaec.RecRunLaws
import RmmCaec.HostCompletions
import RmmCaec.PsciCompletions
import RmmCaec.DescriptorRoundTrip
import RmmCaec.Teardown
import RmmCaec.StartingLevel
import RmmCaec.WalkLocks
import RmmCaec.RipasQuery
import RmmCaec.RipasRanges
import RmmCaec.RipasService
import RmmCaec.UnprotectedMappings
import RmmCaec.DramManifest
import RmmCaec.GranuleIndex
import RmmCaec.GranuleDescriptor
import RmmCaec.RecIdentity
import RmmCaec.GranuleLocks
import RmmCaec.GicState
import RmmCaec.El3Interface
import RmmCaec.PlatformToken
import RmmCaec.TokenStream
import RmmCaec.MmioEmulation
import RmmCaec.EntryRejection
import RmmCaec.RealmCreation
import RmmCaec.XlatDescriptors
import RmmCaec.XlatContexts
import RmmCaec.XlatOverlaps
import RmmCaec.XlatTables
import RmmCaec.XlatForest
import RmmCaec.XlatMapping
import RmmCaec.XlatRegions
import RmmCaec.XlatTranslation
import RmmCaec.XlatPages
import RmmCaec.XlatSlots
import RmmCaec.LinkedCells
import RmmCaec.HeapAlloc
import RmmCaec.HeapBlocks
import RmmCaec.HeapEdits
import RmmCaec.HeapSteps
import RmmCaec.HeapReleases
import RmmCaec.HeapChecks
import RmmCaec.HeapRequests
import RmmCaec.HeapClients
import RmmCaec.HeapLaws
import RmmCaec.TimerLaws
import RmmCaec.CacheLaws
